-- SUMMARY: Requests of another tenant go unnoticed exactly when they carry none of the keys of the first.
import TwinServer.Base.Simulation
import TwinServer.Idempotency.Exclusive

/-!
# Requests of several tenants

The keys of all tenants lie in one store, as the clients have chosen them. Requests with
other keys leave no trace in what the middleware makes of a request; a request that
carries the same key does, whoever has sent it.
-/

open Js Js.Json Async Security

namespace Idempotency

/-! ## What the middleware makes of a request -/

inductive Outcome where
  | undecided
  /-- The handler runs without a key. -/
  | passed
  | run
  | replay (status : Option Nat) (body : Option Json)
  | conflict
  | inProgress

@[local grind] def Phase.outcome : Phase → Outcome
  | .arrived | .getting _ => .undecided
  | .handling _ | .writing _ _ | .answered _ _ => .run
  | .replayed slot => .replay slot.entry.status slot.entry.body
  | .conflict _ => .conflict
  | .inProgress => .inProgress
  | .passed => .passed

/-- Requests before their first segment. -/
def arrivals (rs : List Request) : List Task := rs.map fun r => ⟨r, .arrived⟩

/-- In every run, the requests `ys` fare as they do when no request of `xs` is made. -/
def Undisturbed [Runtime] (hash : String → String) (ttlMs : ℕ+) (backend : Backend)
    (xs ys : List Request) : Prop :=
  ∀ now es c, (∀ r, .call r ∉ es) →
    (idempotencyMiddleware hash ttlMs backend).run ⟨.start now, arrivals (ys ++ xs)⟩ es = some c →
    ∃ c', (idempotencyMiddleware hash ttlMs backend).run ⟨.start now, arrivals ys⟩
        (es.filter (Event.within ys.length)) = some c' ∧
      ∀ (n : Nat) (t : Task), n < ys.length → c.tasks[n]? = some t →
        ∃ t', c'.tasks[n]? = some t' ∧ t.phase.outcome = t'.phase.outcome

/-! ## Up to the numbers of the claims -/

def Claim.erase (c : Claim) : Claim := { c with id := 0 }

def Slot.erase (slot : Slot) : Slot := { slot with claim := slot.claim.erase }

@[local grind] def Phase.erase : Phase → Phase
  | .arrived => .arrived
  | .getting refused => .getting refused.erase
  | .handling c => .handling c.erase
  | .writing c a => .writing c.erase a
  | .answered c a => .answered c.erase a
  | .replayed slot => .replayed slot.erase
  | .conflict met => .conflict (met.map Slot.erase)
  | .inProgress => .inProgress
  | .passed => .passed

theorem outcome_erase (phase : Phase) : phase.erase.outcome = phase.outcome := by
  cases phase <;> rfl

theorem claim?_erase (phase : Phase) : phase.erase.claim? = phase.claim?.map Claim.erase := by
  cases phase <;> rfl

/-- The servers have the same time and the same entries under the keys. -/
structure SameFor (K : String → Prop) (s s' : Server) : Prop where
  now : s.now = s'.now
  entries : ∀ key, K key →
    (s.entries.get? key).map Slot.erase = (s'.entries.get? key).map Slot.erase

/-- One request in two runs. -/
structure Same (K : String → Prop) (t t' : Task) : Prop where
  request : t.request = t'.request
  phase : t.phase.erase = t'.phase.erase
  key : ∀ key, t.request.key? = some key → K key
  claim : ∀ c, t.phase.claim? = some c → K c.key

/-- The request has nothing to do with the keys. -/
structure Elsewhere (K : String → Prop) (t : Task) : Prop where
  key : ∀ key, t.request.key? = some key → ¬ K key
  claim : ∀ c, t.phase.claim? = some c → ¬ K c.key

variable {K : String → Prop}

theorem SameFor.live {s s' : Server} (h : SameFor K s s') {key : String} (hkey : K key) :
    (s.live key).map Slot.erase = (s'.live key).map Slot.erase := by
  have hfilter : ∀ (now : Nat) (o : Option Slot),
      (o.filter fun slot => now < slot.vanishes).map Slot.erase =
        (o.map Slot.erase).filter fun slot => now < slot.vanishes := by
    intro now o
    cases o with
    | none => rfl
    | some slot =>
      simp only [Option.filter_some, Option.map_some]
      rw [show slot.erase.vanishes = slot.vanishes from rfl]
      split <;> rfl
  unfold Server.live
  rw [hfilter, hfilter, h.entries key hkey, h.now]

section
variable [Runtime] {hash : String → String} {ttlMs : ℕ+} {s s' : Server} {r : Request}
  {key : String}

omit [Runtime] in
theorem nextClaim_erase (h : s.now = s'.now) :
    (s.nextClaim ttlMs r key).erase = (s'.nextClaim ttlMs r key).erase := by
  unfold Server.nextClaim Claim.erase
  rw [h]

theorem SameFor.claim (h : SameFor K s s') :
    SameFor K (s.claim hash ttlMs r key) (s'.claim hash ttlMs r key) where
  now := h.now
  entries k hk := by
    rw [get?_claim, get?_claim]
    split
    · simp only [Option.map_some, Slot.erase, nextClaim_erase h.now, h.now]
    · exact h.entries k hk

theorem SameFor.settle {c c' : Claim} {a : Answer} (h : SameFor K s s') (hc : c.erase = c'.erase) :
    SameFor K (s.settle hash ttlMs c a) (s'.settle hash ttlMs c' a) where
  now := h.now
  entries k hk := by
    have hkey : c.key = c'.key := (congrArg Claim.key hc :)
    have hrequest : c.request = c'.request := (congrArg Claim.request hc :)
    rw [get?_settle, get?_settle, hkey]
    split
    · split
      · simp only [Option.map_some, Slot.erase, hc, completed, hrequest, h.now]
      · rfl
    · exact h.entries k hk

/-- What another request does to its own key goes unnoticed. -/
theorem SameFor.claim_left (h : SameFor K s s') (hkey : ¬ K key) :
    SameFor K (s.claim hash ttlMs r key) s' where
  now := h.now
  entries k hk := by
    have hne : k ≠ key := by
      rintro rfl
      exact hkey hk
    rw [get?_claim, if_neg hne]
    exact h.entries k hk

theorem SameFor.settle_left {c : Claim} {a : Answer} (h : SameFor K s s') (hkey : ¬ K c.key) :
    SameFor K (s.settle hash ttlMs c a) s' where
  now := h.now
  entries k hk := by
    have hne : k ≠ c.key := by
      rintro rfl
      exact hkey hk
    rw [get?_settle, if_neg hne]
    exact h.entries k hk

theorem observe_erase {refused refused' : List Slot} {found found' : Option Slot}
    (hrefused : refused.map Slot.erase = refused'.map Slot.erase)
    (hfound : found.map Slot.erase = found'.map Slot.erase) :
    (observe hash r refused found).erase = (observe hash r refused' found').erase := by
  cases found with
  | none =>
    cases found' with
    | none => exact congrArg Phase.conflict hrefused
    | some slot' => cases hfound
  | some slot =>
    cases found' with
    | none => cases hfound
    | some slot' =>
      have hslot : slot.erase = slot'.erase := Option.some.inj hfound
      have hentry : slot.entry = slot'.entry := (congrArg Slot.entry hslot :)
      simp only [observe, hentry]
      split
      · simp only [Phase.erase, List.map_append, List.map_cons, List.map_nil, hrefused, hslot]
      · split
        · exact congrArg Phase.replayed hslot
        · rfl

/-! ## Segments -/

/-- A segment does the same when the entries under the keys are the same. -/
theorem resume_same {backend : Backend} {t t' t₁ : Task} {i : Input} {s₁ : Server}
    (hs : SameFor K s s') (ht : Same K t t') (h : resume hash ttlMs backend s t i = some (s₁, t₁)) :
    ∃ s₁' t₁', resume hash ttlMs backend s' t' i = some (s₁', t₁') ∧ SameFor K s₁ s₁' ∧
      Same K t₁ t₁' := by
  obtain ⟨r, phase⟩ := t
  obtain ⟨r', phase'⟩ := t'
  obtain ⟨hrequest, hphase, hkeys, hclaims⟩ := ht
  obtain rfl : r = r' := hrequest
  cases phase with
  | arrived =>
    obtain rfl : phase' = .arrived := by cases phase' <;> first | rfl | cases hphase
    cases i with
    | answer a => cases h
    | go =>
      simp only [resume] at h ⊢
      cases hkey : r.key? with
      | none =>
        rw [hkey] at h
        obtain ⟨rfl, rfl⟩ := Prod.mk.inj (Option.some.inj h)
        exact ⟨_, _, rfl, hs, rfl, rfl, hkeys, fun c hc => by cases hc⟩
      | some key =>
        rw [hkey] at h
        have hlive := hs.live (hkeys key hkey)
        cases hfound : s.live key with
        | none =>
          rw [hfound] at hlive
          have hfound' : s'.live key = none := Option.map_eq_none_iff.mp hlive.symm
          simp only [hfound, hfound'] at h ⊢
          obtain ⟨rfl, rfl⟩ := Prod.mk.inj (Option.some.inj h)
          refine ⟨_, _, rfl, hs.claim, rfl, ?_, hkeys, fun c hc => ?_⟩
          · exact congrArg Phase.handling (nextClaim_erase hs.now)
          · obtain rfl := Option.some.inj hc
            exact hkeys key hkey
        | some slot =>
          rw [hfound, Option.map_some] at hlive
          obtain ⟨slot', hfound', hslot⟩ := Option.map_eq_some_iff.mp hlive.symm
          simp only [hfound, hfound'] at h ⊢
          cases backend with
          | memory =>
            obtain ⟨rfl, rfl⟩ := Prod.mk.inj (Option.some.inj h)
            have hfounds : (some slot).map Slot.erase = (some slot').map Slot.erase :=
              congrArg some hslot.symm
            have hnone : (observe hash r [] (some slot)).claim? = none := observe_claim? _ _
            refine ⟨_, _, rfl, hs, rfl, observe_erase rfl hfounds, hkeys, fun c hc => ?_⟩
            cases hnone.symm.trans hc
          | redis =>
            obtain ⟨rfl, rfl⟩ := Prod.mk.inj (Option.some.inj h)
            refine ⟨_, _, rfl, hs, rfl, ?_, hkeys, fun c hc => by cases hc⟩
            exact congrArg Phase.getting hslot.symm
  | getting refused =>
    obtain ⟨refused', rfl, hrefused⟩ :
        ∃ refused', phase' = .getting refused' ∧ refused.erase = refused'.erase := by
      cases phase' <;> first | exact ⟨_, rfl, Phase.getting.inj hphase⟩ | cases hphase
    cases i with
    | answer a => cases h
    | go =>
      simp only [resume, Option.map_eq_some_iff] at h ⊢
      obtain ⟨key, hkey, heq⟩ := h
      obtain ⟨rfl, rfl⟩ := Prod.mk.inj heq
      have hrefuseds : [refused].map Slot.erase = [refused'].map Slot.erase :=
        congrArg (fun u => [u]) hrefused
      have hnone : (observe hash r [refused] (s.live key)).claim? = none := observe_claim? _ _
      refine ⟨_, _, ⟨key, hkey, rfl⟩, hs, rfl, observe_erase hrefuseds (hs.live (hkeys key hkey)),
        hkeys, fun c hc => ?_⟩
      cases hnone.symm.trans hc
  | handling c =>
    obtain ⟨c', rfl, hc⟩ : ∃ c', phase' = .handling c' ∧ c.erase = c'.erase := by
      cases phase' <;> first | exact ⟨_, rfl, Phase.handling.inj hphase⟩ | cases hphase
    cases i with
    | go => cases h
    | answer a =>
      cases backend with
      | memory =>
        obtain ⟨rfl, rfl⟩ := Prod.mk.inj (Option.some.inj h)
        refine ⟨_, _, rfl, hs.settle hc, rfl, ?_, hkeys, hclaims⟩
        exact congrArg (fun d => Phase.answered d a) hc
      | redis =>
        obtain ⟨rfl, rfl⟩ := Prod.mk.inj (Option.some.inj h)
        refine ⟨_, _, rfl, hs, rfl, ?_, hkeys, hclaims⟩
        exact congrArg (fun d => Phase.writing d a) hc
  | writing c a =>
    obtain ⟨c', rfl, hc⟩ : ∃ c', phase' = .writing c' a ∧ c.erase = c'.erase := by
      cases phase' with
      | writing c' a' =>
        obtain ⟨hc, rfl⟩ := Phase.writing.inj hphase
        exact ⟨c', rfl, hc⟩
      | _ => cases hphase
    cases i with
    | answer b => cases h
    | go =>
      obtain ⟨rfl, rfl⟩ := Prod.mk.inj (Option.some.inj h)
      refine ⟨_, _, rfl, hs.settle hc, rfl, ?_, hkeys, hclaims⟩
      exact congrArg (fun d => Phase.answered d a) hc
  | answered c a => cases h
  | replayed slot => cases h
  | conflict met => cases h
  | inProgress => cases h
  | passed => cases h

variable (K hash ttlMs) in
theorem hides (backend : Backend) :
    Hides (idempotencyMiddleware hash ttlMs backend) (SameFor K) (Same K) (Elsewhere K) where
  own hs ht h := resume_same hs ht h
  other {s s' t i s₁ t₁} hs ht h := by
    obtain ⟨hrequest, hsegment⟩ := segment_of_resume hash ttlMs h
    obtain ⟨r, phase⟩ := t
    obtain ⟨r', phase'⟩ := t₁
    obtain rfl : r' = r := hrequest
    cases hsegment with
    | passed hkey => exact ⟨hs, ht.key, fun c hc => by cases hc⟩
    | claimed hkey hlive =>
      refine ⟨hs.claim_left (ht.key _ hkey), ht.key, fun c hc => ?_⟩
      obtain rfl := Option.some.inj hc
      exact ht.key _ hkey
    | refused hredis hkey hlive => exact ⟨hs, ht.key, fun c hc => by cases hc⟩
    | @observed _ key refused hkey hphase =>
      have hnone : (observe hash r' refused (s.live key)).claim? = none := observe_claim? _ _
      refine ⟨hs, ht.key, fun c hc => ?_⟩
      cases hnone.symm.trans hc
    | answered hredis => exact ⟨hs, ht.key, ht.claim⟩
    | settled hclaim hwrites hanswer =>
      refine ⟨hs.settle_left (ht.claim _ hclaim), ht.key, fun c hc => ?_⟩
      obtain rfl := Option.some.inj hc
      exact ht.claim _ hclaim
  env {s s' e s₁} hs h := by
    obtain rfl := Option.some.inj h
    exact ⟨_, rfl, congrArg (· + e) hs.now, hs.entries⟩

/-! ## Keys in common -/

omit [Runtime] in
theorem same_arrivals (ys : List Request) (hkeys : ∀ y ∈ ys, ∀ key, y.key? = some key → K key) :
    List.Forall₂ (Same K) (arrivals ys) (arrivals ys) := by
  refine List.forall₂_same.mpr fun t ht => ?_
  obtain ⟨y, hy, rfl⟩ := List.mem_map.mp ht
  exact ⟨rfl, rfl, hkeys y hy, fun c hc => by cases hc⟩

/-- A key that was claimed is taken. -/
theorem live_claim : (s.claim hash ttlMs r key).live key =
    some ⟨s.nextClaim ttlMs r key, { fingerprint := fingerprint hash r, state := .pending },
      s.now + ttlMs⟩ := by
  unfold Server.live
  rw [get?_claim, if_pos rfl]
  apply Option.filter_eq_some_iff.mpr
  refine ⟨rfl, decide_eq_true ?_⟩
  exact Nat.lt_add_of_pos_right ttlMs.pos

theorem observe_conflict {refused : List Slot} {slot : Slot}
    (h : slot.entry.fingerprint ≠ fingerprint hash r) :
    observe hash r refused (some slot) = .conflict (refused ++ [slot]) := if_pos h

theorem observe_outcome (refused : List Slot) (found : Option Slot) :
    (observe hash r refused found).outcome ≠ .run := by
  cases found with
  | none => exact fun h => by cases h
  | some slot =>
    simp only [observe]
    split
    · exact fun h => by cases h
    · split <;> exact fun h => by cases h

variable (hash ttlMs) in
/-- A request whose key is free claims it. -/
theorem step_claim (backend : Backend) {c : Config Server Task} {n : Nat}
    (hn : c.tasks[n]? = some ⟨r, .arrived⟩) (hkey : r.key? = some key)
    (hfree : c.shared.live key = none) :
    (idempotencyMiddleware hash ttlMs backend).step c (.resume n .go) =
      some ⟨c.shared.claim hash ttlMs r key,
        c.tasks.set n ⟨r, .handling (c.shared.nextClaim ttlMs r key)⟩⟩ := by
  simp only [Machine.step, hn, Option.bind_some, idempotencyMiddleware, resume, hkey, hfree,
    Option.map_some]

variable (hash ttlMs) in
theorem step_observe {c : Config Server Task} {n : Nat} {slot : Slot}
    (hn : c.tasks[n]? = some ⟨r, .arrived⟩) (hkey : r.key? = some key)
    (htaken : c.shared.live key = some slot) :
    (idempotencyMiddleware hash ttlMs .memory).step c (.resume n .go) =
      some ⟨c.shared, c.tasks.set n ⟨r, observe hash r [] (some slot)⟩⟩ := by
  simp only [Machine.step, hn, Option.bind_some, idempotencyMiddleware, resume, hkey, htaken,
    Option.map_some]

variable (hash ttlMs) in
/-- A request whose key is taken does not run its handler. -/
theorem step_taken (backend : Backend) {c : Config Server Task} {n : Nat} {slot : Slot}
    (hn : c.tasks[n]? = some ⟨r, .arrived⟩) (hkey : r.key? = some key)
    (htaken : c.shared.live key = some slot) :
    ∃ phase, (idempotencyMiddleware hash ttlMs backend).step c (.resume n .go) =
      some ⟨c.shared, c.tasks.set n ⟨r, phase⟩⟩ ∧ phase.outcome ≠ .run := by
  cases backend with
  | memory => exact ⟨_, step_observe hash ttlMs hn hkey htaken, observe_outcome _ _⟩
  | redis =>
    refine ⟨.getting slot, ?_, fun h => by cases h⟩
    simp only [Machine.step, hn, Option.bind_some, idempotencyMiddleware, resume, hkey, htaken,
      Option.map_some]

omit [Runtime] in
theorem arrivals_getElem? {rs : List Request} {n : Nat} (h : rs[n]? = some r) :
    (arrivals rs)[n]? = some ⟨r, .arrived⟩ := by
  unfold arrivals
  rw [List.getElem?_map, h]
  rfl

variable (hash ttlMs) in
/-- A request that comes after another one with its key does not run its handler. -/
theorem disturbs (backend : Backend) {xs ys : List Request} {x y : Request} (hx : x ∈ xs)
    (hy : y ∈ ys) (hxkey : x.key? = some key) (hykey : y.key? = some key) :
    ¬ Undisturbed hash ttlMs backend xs ys := by
  intro h
  obtain ⟨j, hj⟩ := List.mem_iff_getElem?.mp hx
  obtain ⟨i, hi⟩ := List.mem_iff_getElem?.mp hy
  have hin : i < ys.length := (List.getElem?_eq_some_iff.mp hi).1
  have hne : ys.length + j ≠ i := by omega
  have hjx : (arrivals (ys ++ xs))[ys.length + j]? = some ⟨x, .arrived⟩ := by
    apply arrivals_getElem?
    rw [List.getElem?_append_right (Nat.le_add_right _ _), Nat.add_sub_cancel_left, hj]
  have hiy : (arrivals (ys ++ xs))[i]? = some ⟨y, .arrived⟩ := by
    apply arrivals_getElem?
    rw [List.getElem?_append_left hin, hi]
  -- with the other request, which comes first
  let tasks := (arrivals (ys ++ xs)).set (ys.length + j)
    ⟨x, .handling ((Server.start 0).nextClaim ttlMs x key)⟩
  have htasks : tasks[i]? = some ⟨y, .arrived⟩ := by
    rw [List.getElem?_set_ne hne, hiy]
  have hfirst := step_claim hash ttlMs backend
    (c := ⟨.start 0, arrivals (ys ++ xs)⟩) hjx hxkey rfl
  obtain ⟨phase, hsecond, hphase⟩ := step_taken hash ttlMs backend
    (c := ⟨(Server.start 0).claim hash ttlMs x key, tasks⟩) htasks hykey live_claim
  have hboth : (idempotencyMiddleware hash ttlMs backend).run ⟨.start 0, arrivals (ys ++ xs)⟩
      [.resume (ys.length + j) .go, .resume i .go] =
      some ⟨(Server.start 0).claim hash ttlMs x key, tasks.set i ⟨y, phase⟩⟩ :=
    (Machine.run_cons _ hfirst _).trans (Machine.run_cons _ hsecond [])
  -- and without it
  have halone := step_claim hash ttlMs backend
    (c := ⟨.start 0, arrivals ys⟩) (arrivals_getElem? hi) hykey rfl
  obtain ⟨c', hrun', houtcome⟩ := h 0 [.resume (ys.length + j) .go, .resume i .go] _ (by simp) hboth
  have hfilter : [.resume (ys.length + j) .go, .resume i .go].filter (Event.within ys.length) =
      ([.resume i .go] : List (Event Request Input Nat)) := by
    rw [List.filter_cons_of_neg (by simp [Event.within]),
      List.filter_cons_of_pos (by simpa [Event.within] using hin), List.filter_nil]
  rw [hfilter] at hrun'
  simp only [Machine.run, halone, Option.bind_some, Option.some.injEq] at hrun'
  obtain rfl := hrun'
  have hset : ∀ {l : List Task} {t u : Task}, l[i]? = some u → (l.set i t)[i]? = some t := by
    intro l t u hu
    rw [List.getElem?_set_self (List.getElem?_eq_some_iff.mp hu).1]
  obtain ⟨t', ht', hsame⟩ := houtcome i _ hin (hset htasks)
  obtain rfl := Option.some.inj ((hset (arrivals_getElem? hi)).symm.trans ht')
  exact hphase hsame

variable (hash ttlMs) in
/-- **Tenants do not interfere** exactly when no key of the one is a key of the other. -/
theorem undisturbed_iff (backend : Backend) (xs ys : List Request) :
    Undisturbed hash ttlMs backend xs ys ↔
      ∀ x ∈ xs, ∀ y ∈ ys, ∀ key, x.key? = some key → y.key? ≠ some key := by
  constructor
  · intro h x hx y hy key hxkey hykey
    exact disturbs hash ttlMs backend hx hy hxkey hykey h
  · intro hkeys now es c hes hrun
    let K : String → Prop := fun key => ∃ y ∈ ys, y.key? = some key
    have hmine := same_arrivals (K := K) ys fun y hy key hkey => ⟨y, hy, hkey⟩
    have hothers : ∀ t ∈ arrivals xs, Elsewhere K t := by
      intro t ht
      obtain ⟨x, hx, rfl⟩ := List.mem_map.mp ht
      refine ⟨fun key hkey => ?_, fun c hc => by cases hc⟩
      rintro ⟨y, hy, hykey⟩
      exact hkeys x hx y hy key hkey hykey
    have hsplit : arrivals (ys ++ xs) = arrivals ys ++ arrivals xs := List.map_append
    have hlength : (arrivals ys).length = ys.length := List.length_map _
    rw [hsplit] at hrun
    obtain ⟨c', mine, others, hrun', htasks, hmineLength, hsame, -⟩ :=
      (hides K hash ttlMs backend).run ⟨rfl, fun _ _ => rfl⟩ hmine hothers
        hes hrun
    rw [hlength] at hrun' hmineLength
    refine ⟨c', hrun', fun n t hn ht => ?_⟩
    rw [htasks, List.getElem?_append_left (by omega)] at ht
    obtain ⟨t', ht', hT⟩ := forall₂_getElem? hsame ht
    refine ⟨t', ht', ?_⟩
    rw [← outcome_erase, hT.phase, outcome_erase]

end

/-- A request of a tenant that has chosen a simple key. -/
def createTwin (tenantId : String) : Request where
  method := "POST"
  path := "/twins"
  query := .object []
  body := some (.object [])
  idempotencyKey := some "create-1"
  delegated := none
  auth := some ⟨tenantId, none, some ⟨tenantId, tenantId, "did:iota:" ++ tenantId, "s"⟩⟩

/-- One tenant is refused the key that the other has used, and runs its handler otherwise. -/
theorem other_tenant_conflicts :
    (∃ c t, (@idempotencyMiddleware Runtime.ascii id 5 .memory).run
        ⟨.start 0, arrivals [createTwin "y", createTwin "x"]⟩ [.resume 1 .go, .resume 0 .go] = some c ∧
      c.tasks[0]? = some t ∧ t.phase.outcome = .conflict) ∧
    (∃ c t, (@idempotencyMiddleware Runtime.ascii id 5 .memory).run
        ⟨.start 0, arrivals [createTwin "y"]⟩ [.resume 0 .go] = some c ∧
      c.tasks[0]? = some t ∧ t.phase.outcome = .run) ∧
    ¬ @Undisturbed Runtime.ascii id 5 .memory [createTwin "x"] [createTwin "y"] := by
  refine ⟨?_, ⟨_, _, rfl, rfl, rfl⟩, ?_⟩
  · have hne : @fingerprint Runtime.ascii id (createTwin "x") ≠
        @fingerprint Runtime.ascii id (createTwin "y") := by decide +kernel
    let claim := (Server.start 0).nextClaim 5 (createTwin "x") "create-1"
    let slot : Slot := ⟨claim, ⟨@fingerprint Runtime.ascii id (createTwin "x"), none, none, .pending⟩, 5⟩
    have hobserve := @observe_conflict Runtime.ascii id (createTwin "y") [] slot hne
    have hfirst := @step_claim Runtime.ascii id 5 (createTwin "x") "create-1" .memory
      ⟨.start 0, arrivals [createTwin "y", createTwin "x"]⟩ 1 rfl rfl rfl
    have hsecond := @step_observe Runtime.ascii id 5 (createTwin "y") "create-1"
      ⟨@Server.claim Runtime.ascii id 5 (.start 0) (createTwin "x") "create-1",
        [⟨createTwin "y", .arrived⟩, ⟨createTwin "x", .handling claim⟩]⟩
      0 slot rfl rfl (@live_claim Runtime.ascii id 5 _ _ _)
    rw [hobserve] at hsecond
    have hrun := (Machine.run_cons _ hfirst _).trans (Machine.run_cons _ hsecond [])
    exact ⟨_, ⟨createTwin "y", .conflict [slot]⟩, hrun, rfl, rfl⟩
  · exact @disturbs Runtime.ascii id 5 "create-1" .memory _ _ _ _ List.mem_cons_self
      List.mem_cons_self rfl rfl

end Idempotency
