-- SUMMARY: Claims of idempotency keys are exclusive as long as every response is stored before its key is claimed again.
import TwinServer.Idempotency.Middleware

/-!
# Exclusive claims

The middleware stores a response under the key of the request, without asking whether the
entry there is still its own. As long as the request is the last one to have claimed its
key, it is.
-/

open Js Js.Json Async

namespace Idempotency

/-! ## The guard and the property -/

/-- No request has claimed the key after this one. -/
def Server.Latest (s : Server) (c : Claim) : Prop := ∀ d ∈ s.claimed, d.key = c.key → d.id ≤ c.id

/-- The response of the request reports a failure of the server. -/
def Task.failed (t : Task) : Prop := ∃ a, t.phase.answer? = some a ∧ 500 ≤ a.status

/-- The handler of the request holds the claim: it has not answered. -/
def Task.holds (t : Task) (c : Claim) : Prop := t.phase = .handling c

/-- The entry under the key is that of the claim, and lasts at least as long. -/
def Server.Held (s : Server) (c : Claim) : Prop :=
  s.Latest c ∧ ∃ slot, s.entries.get? c.key = some slot ∧ slot.claim = c ∧ c.deadline ≤ slot.vanishes

structure Server.Sound (s : Server) : Prop where
  ids : ∀ c ∈ s.claimed, c.id < s.claimed.length
  unique : ∀ c ∈ s.claimed, ∀ d ∈ s.claimed, c.id = d.id → c = d
  past : ∀ c ∈ s.claimed, c.acquiredAt ≤ s.now
  slots : ∀ key slot, s.entries.get? key = some slot →
    slot.claim ∈ s.claimed ∧ slot.claim.key = key ∧ s.Latest slot.claim
  own : s.overwritten = []

/-- What holds of a request: its claim is one of the server's, and as long as it is
unexpired and not failed its entry is there. -/
def Task.Keeps (ttlMs : ℕ+) (s : Server) (t : Task) : Prop :=
  ∀ c, t.phase.claim? = some c → c ∈ s.claimed ∧ c.deadline = c.acquiredAt + ttlMs ∧
    (s.now < c.deadline → (∀ a, t.phase = .answered c a → a.status < 500) → s.Held c)

/-- Of two claims of one key the later one was acquired after the end of the earlier. -/
def Task.After (t u : Task) : Prop :=
  ∀ c d, t.phase.claim? = some c → u.phase.claim? = some d → c.id ≠ d.id ∧
    (c.key = d.key → c.id < d.id → c.deadline ≤ d.acquiredAt ∨ t.failed)

def Task.Apart (t u : Task) : Prop := t.After u ∧ u.After t

theorem Server.Held.live {s : Server} {c : Claim} (h : s.Held c) (hnow : s.now < c.deadline) :
    ∃ slot, s.live c.key = some slot ∧ slot.claim = c := by
  obtain ⟨-, slot, hslot, hclaim, hvanishes⟩ := h
  refine ⟨slot, ?_, hclaim⟩
  unfold Server.live
  rw [hslot]
  exact Option.filter_eq_some_iff.mpr ⟨rfl, by simpa using Nat.lt_of_lt_of_le hnow hvanishes⟩

section
variable [Runtime] {hash : String → String} {ttlMs : ℕ+} {s : Server} {r : Request} {key : String}

/-! ## Acquiring a key -/

theorem get?_claim (k : String) : (s.claim hash ttlMs r key).entries.get? k =
    if k = key then some ⟨s.nextClaim ttlMs r key,
      { fingerprint := fingerprint hash r, state := .pending }, s.now + ttlMs⟩
    else s.entries.get? k := by
  simp only [Server.claim, Record.get?_set, Record.get?_delete]
  split <;> rfl

theorem latest_nextClaim (hs : s.Sound) :
    (s.claim hash ttlMs r key).Latest (s.nextClaim ttlMs r key) := by
  intro d hd hkey
  rcases List.mem_append.mp hd with hd | hd
  · exact Nat.le_of_lt (hs.ids d hd)
  · obtain rfl := List.mem_singleton.mp hd
    exact Nat.le_refl _

theorem Server.Latest.claim {c : Claim} (h : s.Latest c) (hkey : c.key ≠ key) :
    (s.claim hash ttlMs r key).Latest c := by
  intro d hd hdc
  rcases List.mem_append.mp hd with hd | hd
  · exact h d hd hdc
  · obtain rfl := List.mem_singleton.mp hd
    exact absurd hdc.symm hkey

theorem Server.Sound.claim (hs : s.Sound) : (s.claim hash ttlMs r key).Sound where
  ids := by
    intro c hc
    have hlength : (s.claim hash ttlMs r key).claimed.length = s.claimed.length + 1 := by
      simp [Server.claim]
    rw [hlength]
    rcases List.mem_append.mp hc with hc | hc
    · exact Nat.lt_succ_of_lt (hs.ids c hc)
    · obtain rfl := List.mem_singleton.mp hc
      exact Nat.lt_succ_self _
  unique := by
    intro c hc d hd hid
    rcases List.mem_append.mp hc with hc | hc <;> rcases List.mem_append.mp hd with hd | hd
    · exact hs.unique c hc d hd hid
    · obtain rfl := List.mem_singleton.mp hd
      exact absurd hid (Nat.ne_of_lt (hs.ids c hc))
    · obtain rfl := List.mem_singleton.mp hc
      exact absurd hid.symm (Nat.ne_of_lt (hs.ids d hd))
    · rw [List.mem_singleton.mp hc, List.mem_singleton.mp hd]
  past := by
    intro c hc
    rcases List.mem_append.mp hc with hc | hc
    · exact hs.past c hc
    · obtain rfl := List.mem_singleton.mp hc
      exact Nat.le_refl _
  slots := by
    intro k slot hslot
    rw [get?_claim] at hslot
    split at hslot
    case isTrue hk =>
      obtain rfl := Option.some.inj hslot
      refine ⟨List.mem_append_right _ List.mem_cons_self, hk.symm, ?_⟩
      exact latest_nextClaim hs
    case isFalse hk =>
      obtain ⟨hmem, hslotKey, hlatest⟩ := hs.slots k slot hslot
      exact ⟨List.mem_append_left _ hmem, hslotKey, hlatest.claim (hslotKey ▸ hk)⟩
  own := hs.own

/-- The claims of the other requests survive the acquisition of a key that was free. -/
theorem Task.Keeps.claim {u : Task} (hu : u.Keeps ttlMs s) (hlive : s.live key = none) :
    u.Keeps ttlMs (s.claim hash ttlMs r key) := by
  intro c hc
  obtain ⟨hmem, hdeadline, hheld⟩ := hu c hc
  refine ⟨List.mem_append_left _ hmem, hdeadline, fun hnow hok => ?_⟩
  have hheld := hheld hnow hok
  have hkey : c.key ≠ key := by
    rintro rfl
    obtain ⟨slot, hslot, -⟩ := hheld.live hnow
    rw [hlive] at hslot
    cases hslot
  obtain ⟨hlatest, slot, hslot, hclaim, hvanishes⟩ := hheld
  exact ⟨hlatest.claim hkey, slot, by rw [get?_claim, if_neg hkey]; exact hslot, hclaim, hvanishes⟩

/-! ## Storing a response -/

theorem get?_settle {c : Claim} {a : Answer} (k : String) :
    (s.settle hash ttlMs c a).entries.get? k =
      if k = c.key then
        if a.status < 500 then some ⟨c, completed hash c a, s.now + ttlMs⟩ else none
      else s.entries.get? k := by
  simp only [Server.settle]
  split
  case isTrue => rw [Record.get?_set]
  case isFalse => rw [Record.get?_delete]

theorem Server.Sound.settle {c : Claim} {a : Answer} (hs : s.Sound) (hmem : c ∈ s.claimed)
    (hlatest : s.Latest c) : (s.settle hash ttlMs c a).Sound where
  ids := hs.ids
  unique := hs.unique
  past := hs.past
  slots := by
    intro k slot hslot
    rw [get?_settle] at hslot
    split at hslot
    case isTrue hk =>
      split at hslot
      · obtain rfl := Option.some.inj hslot
        exact ⟨hmem, hk.symm, hlatest⟩
      · cases hslot
    case isFalse => exact hs.slots k slot hslot
  own := by
    have hnone : s.replaced c = [] := by
      unfold Server.replaced
      cases hlive : s.live c.key with
      | none => rfl
      | some slot =>
        -- the entry is that of the latest claim, which is this one
        have hslot := (Option.filter_eq_some_iff.mp hlive).1
        obtain ⟨hmem', hkey, hlatest'⟩ := hs.slots _ _ hslot
        have hle := hlatest slot.claim hmem' hkey
        have hge := hlatest' c hmem hkey.symm
        exact if_pos (Nat.le_antisymm hle hge)
    simp only [Server.settle, hs.own, hnone, List.append_nil]

/-- The claims of the other requests survive a response that is stored in time. -/
theorem Task.Keeps.settle {u : Task} {c : Claim} {a : Answer} (hu : u.Keeps ttlMs s)
    (hmem : c ∈ s.claimed) (hlatest : s.Latest c)
    (hne : ∀ d, u.phase.claim? = some d → d.id ≠ c.id) :
    u.Keeps ttlMs (s.settle hash ttlMs c a) := by
  intro d hd
  obtain ⟨hmem', hdeadline, hheld⟩ := hu d hd
  refine ⟨hmem', hdeadline, fun hnow hok => ?_⟩
  obtain ⟨hlatest', slot, hslot, hclaim, hvanishes⟩ := hheld hnow hok
  have hkey : d.key ≠ c.key := by
    intro hkey
    have hle := hlatest d hmem' hkey
    have hge := hlatest' c hmem hkey.symm
    exact hne d hd (Nat.le_antisymm hle hge)
  exact ⟨hlatest', slot, by rw [get?_settle, if_neg hkey]; exact hslot, hclaim, hvanishes⟩

/-! ## Segments -/

omit [Runtime] in
theorem Task.After.of_same {t t' u : Task} (h : t.After u) (hclaim : t'.phase.claim? = t.phase.claim?)
    (hfailed : t.failed → t'.failed) : t'.After u := by
  intro c d hc hd
  obtain ⟨hne, hafter⟩ := h c d (hclaim ▸ hc) hd
  exact ⟨hne, fun hkey hlt => (hafter hkey hlt).imp_right hfailed⟩

theorem observe_claim? (refused : List Slot) (slot : Option Slot) :
    (observe hash r refused slot).claim? = none := by
  cases slot with
  | none => rfl
  | some slot =>
    simp only [observe]
    split
    · rfl
    · split <;> rfl

/-- A server whose store is empty. -/
def Server.start (now : Nat) : Server := { now }

omit [Runtime] in
theorem sound_start (now : Nat) : (Server.start now).Sound where
  ids c hc := by cases hc
  unique c hc := by cases hc
  past c hc := by cases hc
  slots key slot hslot := by cases hslot
  own := rfl

end

/-- The publication of a state by a tenant, under a key. -/
def publish (key : String) (subject : String) : Request where
  method := "POST"
  path := "/twins/0x1/states"
  query := .object []
  body := some (.object [("value", .number 1)])
  idempotencyKey := some key
  delegated := none
  auth := some ⟨subject, none, none⟩

end Idempotency
