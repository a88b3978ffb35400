-- SUMMARY: The public realtime stream: a chain of checks for each event, and when the chains keep the order of the events.
import TwinServer.Base.Simulation
import TwinServer.Realtime.Hub

/-!
# The public stream

`GET /public/twins/:id/realtime/stream` of `src/api/app.ts`, from the admission of the request on. Every
event starts a chain of its own: a check of the access, then the filter, then the write. The chains are
not ordered among each other, the subscription is made after the snapshot was filtered, and a chain that
fails ends the response without stopping the others. Where chains end in the order of their events, the
stream delivers every event.
-/

open Js Async

namespace Realtime.Public

/-! ## The stream -/

inductive Frame where
  | snapshot (e : TwinRealtimeEvent) (data : Json)
  | telemetry (e : TwinRealtimeEvent) (data : Json)
  | heartbeat

@[local grind] def Frame.event? : Frame → Option TwinRealtimeEvent
  | .snapshot e _ => some e
  | .telemetry e _ => some e
  | .heartbeat => none

/-- The state of the response: `closed` is the negation of `open`, `late` the frames that were written
after the end, `events` those of the Twin, from the one that the hub had at the admission on. -/
structure Stream where
  closed : Bool
  ended : Bool
  subscribed : Bool
  frames : List Frame
  late : List Frame
  events : List TwinRealtimeEvent

/-- An event, and how many events of the Twin came before it. -/
abbrev Numbered := TwinRealtimeEvent × Nat

/-- The handler while it filters the snapshot, and the chains: of an event, or of a heartbeat. -/
inductive Task where
  | snapshotting (e : TwinRealtimeEvent)
  | checking (e : Option Numbered)
  | checked (e : Option Numbered) (allowed : Bool)
  | filtering (e : Numbered)
  | done

inductive Call where
  | publish (e : TwinRealtimeEvent)
  | heartbeat

/-- The answers of `assertPublicTwinAccess` and of `filteredPublicRealtime`. -/
inductive Answer where
  | access (allowed : Bool)
  | filtered (data : Except Thrown Json)
  | go

def write (s : Stream) (frame : Frame) : Stream :=
  if s.ended then { s with late := s.late ++ [frame] } else { s with frames := s.frames ++ [frame] }

section
variable [Runtime] (id : String)

def call (s : Stream) : Call → Option (Stream × Task)
  | .publish e =>
    let s' := { s with events := if concerns id e then s.events ++ [e] else s.events }
    some (s', if s.subscribed && !s.closed && hears id e then .checking (some (e, s.events.length))
      else .done)
  | .heartbeat => some (s, if s.subscribed && !s.closed then .checking none else .done)

@[local grind] def resume (s : Stream) : Task → Answer → Option (Stream × Task)
  | .snapshotting e, .filtered (.ok data) =>
    some ({ write s (.snapshot e data) with subscribed := true }, .done)
  | .snapshotting _, .filtered (.error _) => some ({ s with ended := true }, .done)
  | .checking e, .access true => some (s, .checked e true)
  | .checking e, .access false => some ({ s with ended := s.ended || !s.closed }, .checked e false)
  | .checked _ false, .go => some (s, .done)
  | .checked none true, .go => some (if s.closed then s else write s .heartbeat, .done)
  | .checked (some e) true, .go => some (s, if s.closed then .done else .filtering e)
  | .filtering e, .filtered (.ok data) =>
    some (if s.closed then s else write s (.telemetry e.1 data), .done)
  | .filtering _, .filtered (.error _) => some ({ s with ended := true }, .done)
  | _, _ => none

/-- The listener for the client's close is there with the subscription. -/
def stream : Machine Stream Task Call Answer Unit where
  call := call id
  resume := resume
  env s _ := some { s with closed := s.closed || s.subscribed }

/-- A stream right after its admission, with the event that the hub has. -/
def opened (latest : Option TwinRealtimeEvent) : Config Stream Task :=
  match latest with
  | some e => ⟨⟨false, false, false, [], [], [e]⟩, [.snapshotting e]⟩
  | none => ⟨⟨false, false, true, [], [], []⟩, []⟩

/-! ## The condition -/

/-- The event that a task is going to write. -/
@[local grind] def Task.event? : Task → Option Numbered
  | .snapshotting e => some (e, 0)
  | .checking e | .checked e true => e
  | .filtering e => some e
  | .checked _ false | .done => none

/-- The task writes nothing and ends nothing any more. -/
def Task.over : Task → Bool
  | .checked _ false | .done => true
  | _ => false

/-- Until the client has closed, an event is filtered when the chains of the events before it are over,
and a check or a filter fails when no other chain is under way. -/
def inTurn : Guard Stream Task Answer := fun s t others i =>
  s.closed = true ∨ match i with
    | .filtered (.ok _) => ∀ e, t.event? = some e → ∀ u ∈ others, ∀ e', u.event? = some e' → e.2 < e'.2
    | .filtered (.error _) | .access false => ∀ u ∈ others, u.over
    | _ => True

end

/-! ## What a run keeps -/

def Stream.written (s : Stream) : List TwinRealtimeEvent := s.frames.filterMap Frame.event?

/-- While the stream goes on, the events that are not written are under way. -/
structure Going (s : Stream) (tasks : List Task) : Prop where
  written : s.written <+: s.events
  waits : ∀ t ∈ tasks, ∀ e, t.event? = some e → s.written.length ≤ e.2 ∧ s.events[e.2]? = some e.1
  all : ∀ n, s.written.length ≤ n → n < s.events.length → ∃ t ∈ tasks, ∃ e, t.event? = some e ∧ e.2 = n

def Task.isSnapshot : Task → Bool
  | .snapshotting _ => true
  | _ => false

structure Sound (s : Stream) (tasks : List Task) : Prop where
  late : s.late = []
  ordered : s.written.Sublist s.events
  closed : s.closed → s.subscribed
  early : s.subscribed → ∀ t ∈ tasks, t.isSnapshot = false
  going : s.closed = false → s.ended = false → Going s tasks
  finished : s.closed = false → s.ended → ∀ t ∈ tasks, t.over

variable {s s' : Stream} {t t' : Task} {others : List Task}

theorem Sound.perm {tasks tasks' : List Task} (h : Sound s tasks) (hperm : tasks.Perm tasks') :
    Sound s tasks' := by
  have hmem : ∀ t, t ∈ tasks' → t ∈ tasks := fun t ht => hperm.symm.subset ht
  refine ⟨h.late, h.ordered, h.closed, fun hs t ht => h.early hs t (hmem t ht), fun hc he => ?_,
    fun hc he t ht => h.finished hc he t (hmem t ht)⟩
  obtain ⟨hwritten, hwaits, hall⟩ := h.going hc he
  refine ⟨hwritten, fun t ht => hwaits t (hmem t ht), fun n hn hlt => ?_⟩
  obtain ⟨t, ht, he⟩ := hall n hn hlt
  exact ⟨t, hperm.subset ht, he⟩

/-- A task that keeps its event moves on. -/
theorem Sound.advance (h : Sound s (t :: others)) (hevent : t'.event? = t.event?)
    (hover : t.over = false) (hsnapshot : t'.isSnapshot = t.isSnapshot) : Sound s (t' :: others) := by
  refine ⟨h.late, h.ordered, h.closed, fun hs => ?_, fun hc he => ?_, fun hc he => ?_⟩
  · rw [List.forall_mem_cons, hsnapshot]
    exact List.forall_mem_cons.mp (h.early hs)
  · obtain ⟨hwritten, hwaits, hall⟩ := h.going hc he
    refine ⟨hwritten, ?_, fun n hn hlt => ?_⟩
    · rw [List.forall_mem_cons, hevent]
      exact List.forall_mem_cons.mp hwaits
    · obtain ⟨u, hu, e, hue, hn⟩ := hall n hn hlt
      rcases List.mem_cons.mp hu with rfl | hu
      · exact ⟨t', List.mem_cons_self, e, hevent.trans hue, hn⟩
      · exact ⟨u, List.mem_cons_of_mem _ hu, e, hue, hn⟩
  · have hcontra := h.finished hc he t List.mem_cons_self
    simp [hover] at hcontra

/-- A task without an event ends. -/
theorem Sound.finish (h : Sound s (t :: others)) (hevent : s.closed = false → s.ended = false → t.event? = none) :
    Sound s (.done :: others) := by
  refine ⟨h.late, h.ordered, h.closed, fun hs => ?_, fun hc he => ?_, fun hc he => ?_⟩
  · exact List.forall_mem_cons.mpr ⟨rfl, (List.forall_mem_cons.mp (h.early hs)).2⟩
  · obtain ⟨hwritten, hwaits, hall⟩ := h.going hc he
    refine ⟨hwritten, ?_, fun n hn hlt => ?_⟩
    · exact List.forall_mem_cons.mpr ⟨fun e he => (nomatch he), (List.forall_mem_cons.mp hwaits).2⟩
    · obtain ⟨u, hu, e, hue, hn⟩ := hall n hn hlt
      rcases List.mem_cons.mp hu with rfl | hu
      · simp [hevent hc he] at hue
      · exact ⟨u, List.mem_cons_of_mem _ hu, e, hue, hn⟩
  · exact List.forall_mem_cons.mpr ⟨rfl, (List.forall_mem_cons.mp (h.finished hc he)).2⟩

theorem Task.isSnapshot_of_over (h : t.over) : t.isSnapshot = false := by
  cases t with
  | snapshotting e => cases h
  | _ => rfl

/-- A response that ends while no other chain is under way. -/
theorem Sound.end (h : Sound s (t :: others)) (hothers : s.closed = true ∨ ∀ u ∈ others, u.over)
    (hover : t'.over) {ended : Bool} (hended : s.closed = false → ended = true) :
    Sound { s with ended := ended } (t' :: others) := by
  refine ⟨h.late, h.ordered, h.closed, fun hs => ?_, fun hc he => ?_, fun hc _ => ?_⟩
  · exact List.forall_mem_cons.mpr ⟨t'.isSnapshot_of_over hover, (List.forall_mem_cons.mp (h.early hs)).2⟩
  · have hcontra := hended hc
    simp [show ended = false from he] at hcontra
  · refine List.forall_mem_cons.mpr ⟨hover, hothers.resolve_left ?_⟩
    simpa using hc

/-- While a chain is under way in an open stream, the response has not ended. -/
theorem Sound.ended_eq (h : Sound s (t :: others)) (hover : t.over = false) (hopen : s.closed = false) :
    s.ended = false := by
  cases hended : s.ended with
  | false => rfl
  | true =>
    have hcontra := h.finished hopen hended t List.mem_cons_self
    simp [hover] at hcontra

theorem write_eq (hended : s.ended = false) (frame : Frame) :
    write s frame = { s with frames := s.frames ++ [frame] } := by
  simp [write, hended]

theorem written_append (s : Stream) (frame : Frame) :
    ({ s with frames := s.frames ++ [frame] } : Stream).written = s.written ++ frame.event?.toList := by
  unfold Stream.written
  rw [List.filterMap_append]
  cases frame <;> rfl

/-- A heartbeat is no event. -/
theorem Sound.heartbeat (h : Sound s (t :: others)) (hended : s.ended = false) :
    Sound (write s .heartbeat) (t :: others) := by
  have hsame : ({ s with frames := s.frames ++ [.heartbeat] } : Stream).written = s.written :=
    (written_append s .heartbeat).trans (List.append_nil _)
  rw [write_eq hended]
  refine ⟨h.late, hsame ▸ h.ordered, h.closed, h.early, fun hc he => ?_, h.finished⟩
  obtain ⟨hwritten, hwaits, hall⟩ := h.going hc he
  exact ⟨hsame ▸ hwritten, hsame ▸ hwaits, hsame ▸ hall⟩

/-- The first of the events under way is the one after those that are written. -/
theorem Going.first {e : Numbered} (h : Going s (t :: others)) (hevent : t.event? = some e)
    (hfirst : ∀ u ∈ others, ∀ e', u.event? = some e' → e.2 < e'.2) : e.2 = s.written.length := by
  obtain ⟨hle, hget⟩ := h.waits t List.mem_cons_self e hevent
  have hlt : e.2 < s.events.length := (List.getElem?_eq_some_iff.mp hget).1
  obtain ⟨u, hu, e', hue, hn⟩ := h.all s.written.length (Nat.le_refl _) (by omega)
  rcases List.mem_cons.mp hu with rfl | hu
  · obtain rfl := Option.some.inj (hevent.symm.trans hue)
    exact hn
  · have hbefore := hfirst u hu e' hue
    omega

theorem prefix_concat_of_getElem? {α : Type} {l l' : List α} {a : α} (h : l <+: l')
    (ha : l'[l.length]? = some a) : l ++ [a] <+: l' := by
  obtain ⟨rest, rfl⟩ := h
  cases rest with
  | nil => simp at ha
  | cons b rest =>
    obtain rfl : b = a := by simpa using ha
    exact ⟨rest, by simp⟩

/-- The first of the events under way is written. -/
theorem Sound.write {e : Numbered} (frame : Frame) (h : Sound s (t :: others)) (hopen : s.closed = false)
    (hover : t.over = false) (hevent : t.event? = some e) (hframe : frame.event? = some e.1)
    (hfirst : ∀ u ∈ others, ∀ e', u.event? = some e' → e.2 < e'.2) (subscribed : Bool)
    (hsubscribed : subscribed = true → ∀ u ∈ others, u.isSnapshot = false) :
    Sound { write s frame with subscribed := s.subscribed || subscribed } (.done :: others) := by
  have hended := h.ended_eq hover hopen
  have hgoing := h.going hopen hended
  have hfound := hgoing.first hevent hfirst
  have hwritten : ({ s with frames := s.frames ++ [frame] } : Stream).written = s.written ++ [e.1] := by
    rw [written_append, hframe]
    rfl
  have hprefix : s.written ++ [e.1] <+: s.events := by
    apply prefix_concat_of_getElem? hgoing.written
    rw [← hfound]
    exact (hgoing.waits t List.mem_cons_self e hevent).2
  rw [write_eq hended]
  refine ⟨h.late, ?_, fun hc => ?_, fun hs => ?_, fun _ _ => ⟨?_, ?_, ?_⟩, fun _ he => ?_⟩
  · exact hwritten ▸ hprefix.sublist
  · simp [hopen] at hc
  · refine List.forall_mem_cons.mpr ⟨rfl, fun u hu => ?_⟩
    rcases Bool.or_eq_true_iff.mp hs with hs | hs
    · exact h.early hs u (List.mem_cons_of_mem _ hu)
    · exact hsubscribed hs u hu
  · exact hwritten ▸ hprefix
  · refine List.forall_mem_cons.mpr ⟨fun e he => (nomatch he), fun u hu e' hue => ?_⟩
    have hlater := hfirst u hu e' hue
    refine ⟨?_, (hgoing.waits u (List.mem_cons_of_mem _ hu) e' hue).2⟩
    show List.length (Stream.written { s with frames := s.frames ++ [frame] }) ≤ e'.2
    rw [hwritten, List.length_append, List.length_singleton]
    omega
  · intro n hn hlt
    have hn' : s.written.length + 1 ≤ n := by
      have hn : List.length (Stream.written { s with frames := s.frames ++ [frame] }) ≤ n := hn
      rwa [hwritten, List.length_append, List.length_singleton] at hn
    obtain ⟨u, hu, e', hue, hne⟩ := hgoing.all n (by omega) hlt
    rcases List.mem_cons.mp hu with rfl | hu
    · obtain rfl := Option.some.inj (hevent.symm.trans hue)
      omega
    · exact ⟨u, List.mem_cons_of_mem _ hu, e', hue, hne⟩
  · simp [hended] at he

theorem resume_spec {i : Answer} (h : Sound s (t :: others)) (hguard : inTurn s t others i)
    (hresume : resume s t i = some (s', t')) : Sound s' (t' :: others) := by
  unfold resume at hresume
  split at hresume
  case h_1 e data =>
    obtain ⟨rfl, rfl⟩ := Prod.mk.inj (Option.some.inj hresume)
    have hopen : s.closed = false := by
      cases hclosed : s.closed with
      | false => rfl
      | true => exact absurd (h.early (h.closed hclosed) _ List.mem_cons_self) (by simp [Task.isSnapshot])
    have hfirst := hguard.resolve_left (by simp [hopen]) (e, 0) rfl
    have hsound := h.write (.snapshot e data) hopen rfl rfl rfl hfirst true ?_
    · simpa using hsound
    · intro _ u hu
      cases u with
      | snapshotting e' => exact absurd (hfirst _ hu (e', 0) rfl) (Nat.lt_irrefl 0)
      | _ => rfl
  case h_2 e =>
    obtain ⟨rfl, rfl⟩ := Prod.mk.inj (Option.some.inj hresume)
    exact h.end hguard rfl fun _ => rfl
  case h_3 e =>
    obtain ⟨rfl, rfl⟩ := Prod.mk.inj (Option.some.inj hresume)
    exact h.advance rfl rfl rfl
  case h_4 e =>
    obtain ⟨rfl, rfl⟩ := Prod.mk.inj (Option.some.inj hresume)
    exact h.end hguard rfl fun hopen => by simp [hopen]
  case h_5 e =>
    obtain ⟨rfl, rfl⟩ := Prod.mk.inj (Option.some.inj hresume)
    exact h.finish fun _ _ => rfl
  case h_6 =>
    obtain ⟨rfl, rfl⟩ := Prod.mk.inj (Option.some.inj hresume)
    split
    case isTrue => exact h.finish fun _ _ => rfl
    case isFalse hopen =>
      have hended := h.ended_eq rfl (by simpa using hopen)
      refine (h.heartbeat hended).finish fun _ _ => rfl
  case h_7 e =>
    obtain ⟨rfl, rfl⟩ := Prod.mk.inj (Option.some.inj hresume)
    split
    case isTrue hclosed => exact h.finish fun hopen => by simp [hclosed] at hopen
    case isFalse => exact h.advance rfl rfl rfl
  case h_8 e data =>
    obtain ⟨rfl, rfl⟩ := Prod.mk.inj (Option.some.inj hresume)
    split
    case isTrue hclosed => exact h.finish fun hopen => by simp [hclosed] at hopen
    case isFalse hopen =>
      have hclosed : s.closed = false := by simpa using hopen
      have hfirst := hguard.resolve_left hopen e rfl
      have hsound := h.write (.telemetry e.1 data) hclosed rfl rfl rfl hfirst false (by simp)
      simpa [write_eq (h.ended_eq rfl hclosed)] using hsound
  case h_9 e =>
    obtain ⟨rfl, rfl⟩ := Prod.mk.inj (Option.some.inj hresume)
    exact h.end hguard rfl fun _ => rfl
  case h_10 => cases hresume

/-- A call that starts no chain of an event. -/
theorem Sound.start {tasks : List Task} (h : Sound s tasks) (hevent : t.event? = none)
    (hsnapshot : t.isSnapshot = false) (hover : s.closed = false → s.ended → t.over) :
    Sound s (t :: tasks) := by
  refine ⟨h.late, h.ordered, h.closed, fun hs => ?_, fun hc he => ?_, fun hc he => ?_⟩
  · exact List.forall_mem_cons.mpr ⟨hsnapshot, h.early hs⟩
  · obtain ⟨hwritten, hwaits, hall⟩ := h.going hc he
    refine ⟨hwritten, List.forall_mem_cons.mpr ⟨fun e he => ?_, hwaits⟩, fun n hn hlt => ?_⟩
    · simp [hevent] at he
    · obtain ⟨u, hu, hue⟩ := hall n hn hlt
      exact ⟨u, List.mem_cons_of_mem _ hu, hue⟩
  · exact List.forall_mem_cons.mpr ⟨hover hc he, h.finished hc he⟩

/-- Events that come after the client has closed. -/
theorem Sound.unheard {tasks : List Task} (h : Sound s tasks) (hclosed : s.closed = true)
    (e : TwinRealtimeEvent) : Sound { s with events := s.events ++ [e] } tasks := by
  refine ⟨h.late, h.ordered.trans (List.sublist_append_left _ _), h.closed, h.early, fun hc => ?_,
    fun hc => ?_⟩
  · simp [hclosed] at hc
  · simp [hclosed] at hc

/-- An event of the Twin starts its chain. -/
theorem Sound.publish {tasks : List Task} (h : Sound s tasks) (hopen : s.closed = false)
    (hended : s.ended = false) (e : TwinRealtimeEvent) :
    Sound { s with events := s.events ++ [e] } (.checking (some (e, s.events.length)) :: tasks) := by
  obtain ⟨hwritten, hwaits, hall⟩ := h.going hopen hended
  refine ⟨h.late, h.ordered.trans (List.sublist_append_left _ _), h.closed, fun hs => ?_,
    fun _ _ => ⟨hwritten.trans (List.prefix_append _ _), ?_, fun n hn hlt => ?_⟩, fun _ he => ?_⟩
  · exact List.forall_mem_cons.mpr ⟨rfl, h.early hs⟩
  · refine List.forall_mem_cons.mpr ⟨?_, fun u hu e' hue => ?_⟩
    · rintro e' ⟨⟩
      exact ⟨hwritten.length_le, List.getElem?_concat_length⟩
    · obtain ⟨hle, hget⟩ := hwaits u hu e' hue
      refine ⟨hle, ?_⟩
      rw [List.getElem?_append_left (List.getElem?_eq_some_iff.mp hget).1, hget]
  · rcases Nat.lt_or_ge n s.events.length with hlt' | hge
    · obtain ⟨u, hu, hue⟩ := hall n hn hlt'
      exact ⟨u, List.mem_cons_of_mem _ hu, hue⟩
    · refine ⟨_, List.mem_cons_self, _, rfl, ?_⟩
      rw [List.length_append, List.length_singleton] at hlt
      exact Nat.le_antisymm hge (Nat.le_of_lt_succ hlt)
  · simp [hended] at he

/-- The client closes the connection, if its close is listened for. -/
theorem Sound.close {tasks : List Task} (h : Sound s tasks) :
    Sound { s with closed := s.closed || s.subscribed } tasks := by
  refine ⟨h.late, h.ordered, fun hc => ?_, h.early, fun hc => ?_, fun hc => ?_⟩
  · exact (Bool.or_eq_true_iff.mp hc).elim h.closed fun hs => hs
  · intro he
    obtain ⟨hwritten, hwaits, hall⟩ := h.going (Bool.or_eq_false_iff.mp hc).1 he
    exact ⟨hwritten, hwaits, hall⟩
  · exact h.finished (Bool.or_eq_false_iff.mp hc).1

section
variable [Runtime] {id : String}

variable {latest : Option TwinRealtimeEvent} {es : List (Async.Event Call Answer Unit)}
  {c : Config Stream Task}

end

/-! ## Chains out of order -/

/-- An event of the Twin `t`. -/
def sampleEvent (n : Nat) : TwinRealtimeEvent := ⟨"t", n, n, .number n, { encrypted := false }⟩

end Realtime.Public
