-- SUMMARY: At most one request per command id, in runs where no two insertions of one id overlap.
import TwinServer.Commands.System

/-!
# Dispatch

`create` looks whether an id is taken and inserts the record after a suspension. When
no other `create` of the same id stands between its look and its insertion, an id is
inserted once; the record keeps its Twin, caller and command, and its request is
published at most once.
-/

open Js Js.Json Async

namespace Commands

/-! ## The condition -/

/-- A record is inserted only while no other `create` is about to insert its id. -/
def InsertsAlone : Guard Service Task Input := fun _ t others _ =>
  ∀ r, t = .inserting r → ∀ r', Task.inserting r' ∈ others → r'.commandId ≠ r.commandId

/-! ## The invariant -/

/-- The id of a request that is stored and not yet published. -/
def Task.unsent : Task → Option String
  | .persisting r | .signing r => some r.commandId
  | _ => none

/-- The id is stored, for the same command. -/
def Service.Has (s : Service) (r : CommandRecord) : Prop :=
  ∃ r', s.record? r.commandId = some r' ∧ r'.SameCommand r

structure Dispatched (s : Service) : Prop where
  keyed : s.Keyed
  nodup : s.dispatchedIds.Nodup
  stored : ∀ k ∈ s.dispatchedIds, (s.record? k).isSome

/-- What a task may rely on: an id it is about to insert is free, and the record it
holds belongs to the command that is stored. -/
@[local grind] def Task.Sound (s : Service) : Task → Prop
  | .inserting r => s.record? r.commandId = none
  | .persisting r | .signing r => s.Has r ∧ r.commandId ∉ s.dispatchedIds
  | .publishing r | .putting _ r => s.Has r
  | _ => True

/-- No two tasks are to publish the same id. -/
def Task.Apart (t u : Task) : Prop := ∀ k, t.unsent = some k → u.unsent ≠ some k

theorem Task.Apart.symm {t u : Task} (h : t.Apart u) : u.Apart t :=
  fun k hu ht => h k ht hu

theorem Task.apart_of_unsent {t : Task} (h : t.unsent = none) (u : Task) : t.Apart u := by
  intro k hk
  rw [h] at hk
  cases hk

/-! ## What the writes keep -/

variable {s : Service} {r : CommandRecord}

theorem Service.Has.set {r' : CommandRecord} (h : s.Has r')
    (hr : ∀ r₀, s.record? r.commandId = some r₀ → r.SameCommand r₀) : (s.set r).Has r' := by
  obtain ⟨r₀, hr₀, hsame⟩ := h
  by_cases hk : r'.commandId = r.commandId
  · rw [hk] at hr₀
    exact ⟨r, by rw [hk, Service.record?_set_self], (hr r₀ hr₀).trans hsame⟩
  · exact ⟨r₀, by rw [Service.record?_set_ne s hk, hr₀], hsame⟩

theorem Service.has_set_self (s : Service) (r : CommandRecord) : (s.set r).Has r :=
  ⟨r, Service.record?_set_self s r, .refl r⟩

/-- A write keeps the invariant of the store. -/
theorem Dispatched.set (h : Dispatched s) (r : CommandRecord) : Dispatched (s.set r) := by
  refine ⟨h.keyed.set r, h.nodup, fun k hk => ?_⟩
  rw [Service.record?_set]
  split
  · rfl
  · exact h.stored k hk

/-- A write for the command that is stored keeps what the other tasks rely on. -/
theorem Task.Sound.set {u : Task} (hu : u.Sound s) (hstored : (s.record? r.commandId).isSome)
    (hr : ∀ r₀, s.record? r.commandId = some r₀ → r.SameCommand r₀) : u.Sound (s.set r) := by
  cases u with
  | inserting r' =>
    have hne : r'.commandId ≠ r.commandId := by
      intro heq
      simp only [Task.Sound, heq] at hu
      rw [hu] at hstored
      cases hstored
    simpa only [Task.Sound, Service.record?_set_ne s hne] using hu
  | persisting r' => exact ⟨hu.1.set hr, hu.2⟩
  | signing r' => exact ⟨hu.1.set hr, hu.2⟩
  | publishing r' => exact Service.Has.set hu hr
  | putting w r' => exact Service.Has.set hu hr
  | checking | reading | looking | saving | returned | ignored | threw => trivial

/-- The insertion of a free id that no other task is about to insert keeps what the
other tasks rely on. -/
theorem Task.Sound.insert {u : Task} (hu : u.Sound s) (hfree : s.record? r.commandId = none)
    (hne : ∀ r', u = .inserting r' → r'.commandId ≠ r.commandId) : u.Sound (s.set r) := by
  have hr : ∀ r₀, s.record? r.commandId = some r₀ → r.SameCommand r₀ := by
    intro r₀ hr₀
    rw [hfree] at hr₀
    cases hr₀
  cases u with
  | inserting r' => simpa only [Task.Sound, Service.record?_set_ne s (hne r' rfl)] using hu
  | persisting r' => exact ⟨hu.1.set hr, hu.2⟩
  | signing r' => exact ⟨hu.1.set hr, hu.2⟩
  | publishing r' => exact Service.Has.set hu hr
  | putting w r' => exact Service.Has.set hu hr
  | checking | reading | looking | saving | returned | ignored | threw => trivial

theorem Service.Has.of_free {r' : CommandRecord} (h : s.Has r')
    (hfree : s.record? r.commandId = none) : r'.commandId ≠ r.commandId := by
  obtain ⟨r₀, hr₀, -⟩ := h
  intro heq
  rw [heq, hfree] at hr₀
  cases hr₀

/-- A publication keeps what the tasks rely on that are not to publish the same id. -/
theorem Task.Sound.publish {u : Task} (hu : u.Sound s) (hapart : u.unsent ≠ some r.commandId) :
    u.Sound (s.publish r) := by
  cases u with
  | persisting r' =>
    have hne : r'.commandId ≠ r.commandId := fun heq => hapart (congrArg some heq)
    refine ⟨hu.1, ?_⟩
    rw [Service.dispatchedIds_publish, List.mem_append, List.mem_singleton, not_or]
    exact ⟨hu.2, hne⟩
  | signing r' =>
    have hne : r'.commandId ≠ r.commandId := fun heq => hapart (congrArg some heq)
    refine ⟨hu.1, ?_⟩
    rw [Service.dispatchedIds_publish, List.mem_append, List.mem_singleton, not_or]
    exact ⟨hu.2, hne⟩
  | inserting r' => exact hu
  | publishing r' => exact hu
  | putting w r' => exact hu
  | checking | reading | looking | saving | returned | ignored | threw => trivial

theorem Dispatched.publish (h : Dispatched s) (hnew : r.commandId ∉ s.dispatchedIds)
    (hhas : s.Has r) : Dispatched (s.publish r) := by
  refine ⟨h.keyed, ?_, ?_⟩
  · rw [Service.dispatchedIds_publish]
    exact List.nodup_append.mpr ⟨h.nodup, (by simp), by
      intro a ha b hb
      obtain rfl := List.mem_singleton.mp hb
      exact fun heq => hnew (heq ▸ ha)⟩
  · intro k hk
    rw [Service.dispatchedIds_publish, List.mem_append, List.mem_singleton] at hk
    rcases hk with hk | rfl
    · exact h.stored k hk
    · obtain ⟨r', hr', -⟩ := hhas
      simp [hr']

/-- Nothing has been published when the records are read. -/
theorem dispatched_load (data : List CommandRecord) : Dispatched (.load data) where
  keyed := Service.keyed_load data
  nodup := List.nodup_nil
  stored k hk := by cases hk

/-! ## The segments -/

/-- A task that leaves the shared state alone and will not publish. -/
theorem quiet_segment {others : List Task} {t' : Task} (h : Dispatched s) (ht' : t'.Sound s)
    (hunsent : t'.unsent = none) (hothers : ∀ u ∈ others, u.Sound s) :
    Dispatched s ∧ t'.Sound s ∧ ∀ u ∈ others, u.Sound s ∧ t'.Apart u :=
  ⟨h, ht', fun u hu => ⟨hothers u hu, Task.apart_of_unsent hunsent u⟩⟩

/-- A write for the command that is stored. -/
theorem write_segment {others : List Task} {w : Writer} (h : Dispatched s)
    (ht : (Task.putting w r).Sound s) (hothers : ∀ u ∈ others, u.Sound s) :
    Dispatched (s.set r) ∧ (Task.saving r).Sound (s.set r) ∧
      ∀ u ∈ others, u.Sound (s.set r) ∧ (Task.saving r).Apart u := by
  obtain ⟨r₀, hr₀, hsame⟩ := ht
  have hr : ∀ r₁, s.record? r.commandId = some r₁ → r.SameCommand r₁ := by
    intro r₁ hr₁
    obtain rfl := Option.some.inj (hr₀.symm.trans hr₁)
    exact hsame.symm
  refine ⟨h.set r, trivial, fun u hu => ⟨?_, Task.apart_of_unsent rfl u⟩⟩
  exact (hothers u hu).set (by simp [hr₀]) hr

theorem insert_segment {others : List Task} (h : Dispatched s)
    (hfree : s.record? r.commandId = none) (hothers : ∀ u ∈ others, u.Sound s)
    (halone : ∀ r', Task.inserting r' ∈ others → r'.commandId ≠ r.commandId) :
    Dispatched (s.set r) ∧ (Task.persisting r).Sound (s.set r) ∧
      ∀ u ∈ others, u.Sound (s.set r) ∧ (Task.persisting r).Apart u := by
  have hnew : r.commandId ∉ s.dispatchedIds := by
    intro hk
    have := h.stored r.commandId hk
    rw [hfree] at this
    cases this
  refine ⟨h.set r, ⟨Service.has_set_self s r, hnew⟩, fun u hu => ⟨?_, ?_⟩⟩
  · refine (hothers u hu).insert hfree fun r' hr' => halone r' ?_
    exact hr' ▸ hu
  · -- an id that is to be published is stored, and this one was free
    intro k hk hu'
    obtain rfl := Option.some.inj hk
    have hsound := hothers u hu
    cases u with
    | persisting r' => exact hsound.1.of_free hfree (Option.some.inj hu')
    | signing r' => exact hsound.1.of_free hfree (Option.some.inj hu')
    | inserting | publishing | putting | checking | reading | looking | saving | returned
    | ignored | threw => cases hu'

theorem publish_segment {others : List Task} (h : Dispatched s) (ht : (Task.signing r).Sound s)
    (hothers : ∀ u ∈ others, u.Sound s ∧ (Task.signing r).Apart u) :
    Dispatched (s.publish r) ∧ (Task.publishing r).Sound (s.publish r) ∧
      ∀ u ∈ others, u.Sound (s.publish r) ∧ (Task.publishing r).Apart u := by
  refine ⟨h.publish ht.2 ht.1, ht.1, fun u hu => ⟨?_, Task.apart_of_unsent rfl u⟩⟩
  exact (hothers u hu).1.publish ((hothers u hu).2 r.commandId rfl)

/-- The record a result or an expiry makes of a stored one is of the same command. -/
theorem Service.Has.of_find (hs : s.Keyed) {twinId commandId : String} {r₀ : CommandRecord}
    (hfind : s.find twinId commandId = some r₀) (hsame : r₀.SameCommand r) : s.Has r := by
  obtain ⟨hr₀, hid, -⟩ := hs.find hfind
  exact ⟨r₀, by rw [← hsame.1, hid, hr₀], hsame⟩

theorem resume_sound {t t' : Task} {i : Input} {s' : Service} {others : List Task}
    (h : Dispatched s) (ht : t.Sound s) (hothers : ∀ u ∈ others, u.Sound s ∧ t.Apart u)
    (hguard : InsertsAlone s t others i) (hresume : resume s t i = some (s', t')) :
    Dispatched s' ∧ t'.Sound s' ∧ ∀ u ∈ others, u.Sound s' ∧ t'.Apart u := by
  have hsound : ∀ u ∈ others, u.Sound s := fun u hu => (hothers u hu).1
  cases segment_of_resume hresume with
  | free hfree => exact quiet_segment h hfree rfl hsound
  | inserted => exact insert_segment h ht hsound (hguard _ rfl)
  | persisted => exact ⟨h, ht, hothers⟩
  | published => exact publish_segment h ht hothers
  | acknowledged => exact quiet_segment h ht rfl hsound
  | @answered topic m r now hfind hopen =>
    have hhas : s.Has (r.accept m now) := .of_find h.keyed hfind ⟨rfl, rfl, rfl, rfl⟩
    exact quiet_segment h hhas rfl hsound
  | @overdue twinId commandId r now hfind hopen =>
    have hhas : s.Has (r.expire now) := .of_find h.keyed hfind ⟨rfl, rfl, rfl, rfl⟩
    exact quiet_segment h hhas rfl hsound
  | written => exact write_segment h ht hsound
  | ended hover =>
    cases t' with
    | returned | ignored | threw => exact quiet_segment h trivial rfl hsound
    | _ => cases hover

section
variable [Runtime] {config : CommandConfig} {lib : Library} {writable : Bool}
  {mayPublish : String → String → Bool}

theorem call_sound {k : Call} {s' : Service} {t : Task} (h : Dispatched s)
    (hcall : call config lib writable mayPublish s k = some (s', t)) :
    Dispatched s' ∧ t.Sound s' ∧ ∀ u, u.Sound s → u.Sound s' ∧ t.Apart u := by
  obtain ⟨rfl, hcases⟩ := call_cases hcall
  have hquiet : t.Sound s' ∧ t.unsent = none := by
    rcases hcases with ⟨r, rfl, -⟩ | ⟨twinId, commandId, rfl⟩ | ⟨topic, m, rfl, -⟩ | hover
    · exact ⟨trivial, rfl⟩
    · exact ⟨trivial, rfl⟩
    · exact ⟨trivial, rfl⟩
    · cases t with
      | returned | ignored | threw => exact ⟨trivial, rfl⟩
      | _ => cases hover
  exact ⟨h, hquiet.1, fun u hu => ⟨hu, Task.apart_of_unsent hquiet.2 u⟩⟩

theorem dispatch_modular :
    Modular (machine config lib writable mayPublish) InsertsAlone Dispatched Task.Sound
      Task.Apart where
  symm := Task.Apart.symm
  call := call_sound
  resume h ht hothers hguard hresume := resume_sound h ht hothers hguard hresume
  env _ h := by cases h

end

/-! ## Runs -/

/-- The records of a state keep their Twin, caller and command. -/
def KeepsCommands (s s' : Service) : Prop :=
  ∀ k r, s.record? k = some r → ∃ r', s'.record? k = some r' ∧ r'.SameCommand r

theorem KeepsCommands.trans {a b c : Service} (h : KeepsCommands a b) (h' : KeepsCommands b c) :
    KeepsCommands a c := by
  intro k r hr
  obtain ⟨r', hr', hsame⟩ := h k r hr
  obtain ⟨r'', hr'', hsame'⟩ := h' k r' hr'
  exact ⟨r'', hr'', hsame'.trans hsame⟩

/-- One `create` up to its insertion. -/
def submission : List (Event Call Input Empty) :=
  [.call (.create (objectId 'a') "did:iota:a" pauseRequest 0 ""), .resume 0 (.done 0),
   .resume 0 (.done 0)]

/-- The same `create` up to its publication. -/
def publication : List (Event Call Input Empty) := [.resume 0 (.done 0), .resume 0 (.done 0)]

end Commands
