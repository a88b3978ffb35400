-- SUMMARY: The middleware over Redis does what it does over the memory store as long as no entry vanishes between SET and GET.
import TwinServer.Idempotency.Tenants

/-!
# The Redis store as the memory store

Over Redis an acquisition that is refused takes two steps. When the second one finds an
entry, the memory store acquires at that moment; when it finds none although the first
was refused by an entry of another request, it acquires at the first. Which of the two it
is depends on what is still to come, so the run of the memory store is found with a
choice for every request.
-/

open Js Js.Json Async

namespace Idempotency

section
variable [Runtime] (hash : String → String)

/-! ## The guard and the property -/

/-- A `GET` that finds no entry follows a `SET NX` that was refused by an entry with another
fingerprint. -/
def refusedByOther : Guard Server Task Input := fun s t _ _ =>
  ∀ refused key, t.phase = .getting refused → t.request.key? = some key → s.live key = none →
    refused.entry.fingerprint ≠ fingerprint hash t.request

/-- A run of the memory store with the outcomes of a run of the Redis store. -/
structure Refines (c d : Config Server Task) : Prop where
  store : d.shared = c.shared
  length : d.tasks.length = c.tasks.length
  outcomes : ∀ (n : Nat) (t : Task), c.tasks[n]? = some t → ∃ u, d.tasks[n]? = some u ∧
    u.request = t.request ∧ u.phase.outcome = t.phase.outcome
  answers : ∀ (n : Nat) (t : Task) (claim : Claim) (a : Answer), c.tasks[n]? = some t →
    t.phase = .answered claim a → ∃ u, d.tasks[n]? = some u ∧ u.phase = .answered claim a

/-- Some entry that the store met while the request acquired has another fingerprint. -/
def Task.Conflicts (t : Task) : Prop := ∀ met, t.phase = .conflict met →
  ∃ slot ∈ met, slot.entry.fingerprint ≠ fingerprint hash t.request

/-! ## What the memory store does in the meantime -/

/-- The phase of a request over the memory store; `early` says whether it acquires when
`SET NX` is refused. -/
def Matches (early : Bool) (t u : Task) : Prop :=
  u.request = t.request ∧
    match t.phase with
    | .getting refused =>
      if early ∧ refused.entry.fingerprint ≠ fingerprint hash t.request then
        ∃ met, u.phase = .conflict met
      else u.phase = .arrived
    | .writing claim _ => u.phase = .handling claim
    | .conflict _ => ∃ met, u.phase = .conflict met
    | phase => u.phase = phase

structure Follows (early : Nat → Bool) (c d : Config Server Task) : Prop where
  store : d.shared = c.shared
  length : d.tasks.length = c.tasks.length
  tasks : ∀ (n : Nat) (t : Task), c.tasks[n]? = some t →
    ∃ u, d.tasks[n]? = some u ∧ Matches hash (early n) t u

variable {hash} {ttlMs : ℕ+} {c d : Config Server Task} {early early' : Nat → Bool}

theorem Follows.set (h : Follows hash early c d) {n : Nat} {t' u' : Task} {s : Server}
    (hearly : ∀ m, m ≠ n → early' m = early m) (hn : n < c.tasks.length)
    (hmatches : Matches hash (early' n) t' u') :
    Follows hash early' ⟨s, c.tasks.set n t'⟩ ⟨s, d.tasks.set n u'⟩ where
  store := rfl
  length := by simp only [List.length_set, h.length]
  tasks m t ht := by
    rcases Nat.decEq n m with hne | rfl
    · rw [List.getElem?_set_ne hne] at ht
      obtain ⟨u, hu, hm⟩ := h.tasks m t ht
      refine ⟨u, by rw [List.getElem?_set_ne hne, hu], ?_⟩
      rw [hearly m (Ne.symm hne)]
      exact hm
    · rw [List.getElem?_set_self hn] at ht
      obtain rfl := Option.some.inj ht
      exact ⟨u', by rw [List.getElem?_set_self (h.length ▸ hn)], hmatches⟩

/-- The task of the memory store stays where it is. -/
theorem Follows.stay (h : Follows hash early c d) {n : Nat} {t' u : Task} {s : Server}
    (hearly : ∀ m, m ≠ n → early' m = early m) (hn : n < c.tasks.length)
    (hu : d.tasks[n]? = some u) (hs : d.shared = s) (hmatches : Matches hash (early' n) t' u) :
    Follows hash early' ⟨s, c.tasks.set n t'⟩ d := by
  have hset : d.tasks.set n u = d.tasks := by
    obtain ⟨hlt, rfl⟩ := List.getElem?_eq_some_iff.mp hu
    exact List.set_getElem_self hlt
  have hd : d = ⟨s, d.tasks.set n u⟩ := by
    rw [hset, ← hs]
  rw [hd]
  exact h.set hearly hn hmatches

theorem Follows.call (h : Follows hash early c d) {r : Request} :
    Follows hash early ⟨c.shared, c.tasks ++ [⟨r, .arrived⟩]⟩
      ⟨d.shared, d.tasks ++ [⟨r, .arrived⟩]⟩ where
  store := h.store
  length := by simp only [List.length_append, h.length]
  tasks m t ht := by
    rcases Nat.lt_or_ge m c.tasks.length with hm | hm
    · rw [List.getElem?_append_left hm] at ht
      obtain ⟨u, hu, hmatches⟩ := h.tasks m t ht
      exact ⟨u, by rw [List.getElem?_append_left (h.length ▸ hm), hu], hmatches⟩
    · rw [List.getElem?_append_right hm] at ht
      obtain rfl := List.mem_singleton.mp (List.mem_of_getElem? ht)
      refine ⟨⟨r, .arrived⟩, ?_, rfl, rfl⟩
      rw [List.getElem?_append_right (h.length ▸ hm), h.length]
      exact ht

/-- The choice for one request is made anew. -/
def chosen (early : Nat → Bool) (n : Nat) (b : Bool) : Nat → Bool :=
  fun m => if m = n then b else early m

omit [Runtime] in
theorem chosen_self (early : Nat → Bool) (n : Nat) (b : Bool) : chosen early n b n = b := if_pos rfl

omit [Runtime] in
theorem chosen_of_ne (early : Nat → Bool) {n m : Nat} (b : Bool) (h : m ≠ n) :
    early m = chosen early n b m := (if_neg h).symm

theorem observe_same {r : Request} {found : Slot} (refused : List Slot)
    (h : found.entry.fingerprint = fingerprint hash r) :
    observe hash r refused (some found) =
      if found.entry.state = .complete then .replayed found else .inProgress :=
  if_neg (Decidable.not_not.mpr h)

theorem matches_observe {r : Request} {refused refused' : List Slot} {found : Slot} (b : Bool) :
    Matches hash b ⟨r, observe hash r refused (some found)⟩
      ⟨r, observe hash r refused' (some found)⟩ := by
  rcases Decidable.em (found.entry.fingerprint = fingerprint hash r) with heq | hne
  · rw [observe_same _ heq, observe_same _ heq]
    split <;> exact ⟨rfl, rfl⟩
  · rw [observe_conflict hne, observe_conflict hne]
    exact ⟨rfl, _, rfl⟩

/-- A request that the memory store handles late has the outcome it has over Redis. -/
theorem outcome_of_matches {t u : Task} (h : Matches hash false t u) :
    u.phase.outcome = t.phase.outcome := by
  obtain ⟨r, phase⟩ := t
  obtain ⟨-, hphase⟩ := h
  cases phase with
  | getting refused =>
    have harrived : u.phase = .arrived := (if_neg (by simp)).mp hphase
    rw [harrived]
    rfl
  | writing claim a =>
    have hhandling : u.phase = .handling claim := hphase
    rw [hhandling]
    rfl
  | conflict met =>
    obtain ⟨met', hconflict⟩ : ∃ met', u.phase = .conflict met' := hphase
    rw [hconflict]
    rfl
  | arrived | handling _ | answered _ _ | replayed _ | inProgress | passed =>
    exact congrArg Phase.outcome hphase

theorem follows_resume {n : Nat} {i : Input} {t t' : Task} {s' : Server}
    (ht : c.tasks[n]? = some t) (hguard : refusedByOther hash c.shared t (c.tasks.eraseIdx n) i)
    (h : resume hash ttlMs .redis c.shared t i = some (s', t')) (early : Nat → Bool) :
    ∃ early', ∀ d, Follows hash early' c d → ∃ es d',
      (idempotencyMiddleware hash ttlMs .memory).run d es = some d' ∧
        Follows hash early ⟨s', c.tasks.set n t'⟩ d' := by
  have hn : n < c.tasks.length := (List.getElem?_eq_some_iff.mp ht).1
  obtain ⟨hrequest, hsegment⟩ := segment_of_resume hash ttlMs h
  obtain ⟨r, phase⟩ := t
  obtain ⟨r', phase'⟩ := t'
  obtain rfl : r' = r := hrequest
  -- one step of the memory store that leads to the same store
  have hone : ∀ {early' : Nat → Bool} {d : Config Server Task} {u : Task} (u' : Task) (j : Input),
      Follows hash early' c d → (∀ m, m ≠ n → early m = early' m) → d.tasks[n]? = some u →
      resume hash ttlMs .memory c.shared u j = some (s', u') →
      Matches hash (early n) ⟨r', phase'⟩ u' →
      ∃ es d', (idempotencyMiddleware hash ttlMs .memory).run d es = some d' ∧
        Follows hash early ⟨s', c.tasks.set n ⟨r', phase'⟩⟩ d' := by
    intro early' d u u' j hd hearly hu hresume hmatches
    have hstep : (idempotencyMiddleware hash ttlMs .memory).step d (.resume n j) =
        some ⟨s', d.tasks.set n u'⟩ := Machine.step_of_resume hu (by rw [hd.store]; exact hresume)
    exact ⟨[.resume n j], _, Machine.run_cons _ hstep [], hd.set hearly hn hmatches⟩
  cases hsegment with
  | passed hkey =>
    refine ⟨early, fun d hd => ?_⟩
    obtain ⟨⟨ur, uphase⟩, hu, hur, huphase⟩ := hd.tasks n _ ht
    obtain rfl : ur = r' := hur
    obtain rfl : uphase = .arrived := huphase
    refine hone ⟨ur, .passed⟩ .go hd (fun _ _ => rfl) hu ?_ ⟨rfl, rfl⟩
    simp only [resume, hkey]
  | @claimed key hkey hlive =>
    refine ⟨early, fun d hd => ?_⟩
    obtain ⟨⟨ur, uphase⟩, hu, hur, huphase⟩ := hd.tasks n _ ht
    obtain rfl : ur = r' := hur
    obtain rfl : uphase = .arrived := huphase
    refine hone _ .go hd (fun _ _ => rfl) hu ?_ ⟨rfl, rfl⟩
    simp only [resume, hkey, hlive]
  | @refused key slot hredis hkey hlive =>
    refine ⟨early, fun d hd => ?_⟩
    obtain ⟨⟨ur, uphase⟩, hu, hur, huphase⟩ := hd.tasks n _ ht
    obtain rfl : ur = r' := hur
    obtain rfl : uphase = .arrived := huphase
    rcases Decidable.em (early n ∧ slot.entry.fingerprint ≠ fingerprint hash ur) with hnow | hlater
    · -- the memory store acquires now, and finds what has refused
      refine hone ⟨ur, .conflict [slot]⟩ .go hd (fun _ _ => rfl) hu ?_ ⟨rfl, ?_⟩
      · simp only [resume, hkey, hlive, observe_conflict hnow.2]
        rfl
      · show if _ then _ else _
        rw [if_pos hnow]
        exact ⟨_, rfl⟩
    · refine ⟨[], d, rfl, hd.stay (fun _ _ => rfl) hn hu hd.store ⟨rfl, ?_⟩⟩
      show if _ then _ else _
      rw [if_neg hlater]
  | @observed phase key refused hkey hphase =>
    obtain ⟨-, hmemory, -⟩ | ⟨slot, hgetting, hrefused⟩ := hphase
    · cases hmemory
    obtain rfl : phase = .getting slot := hgetting
    obtain rfl : refused = [slot] := hrefused
    obtain hlive | ⟨found, hlive⟩ := Option.eq_none_or_eq_some (c.shared.live key)
    · -- the memory store has acquired when the key was refused
      have hother := hguard slot key rfl hkey hlive
      refine ⟨chosen early n true, fun d hd => ?_⟩
      obtain ⟨u, hu, hur, huphase⟩ := hd.tasks n _ ht
      rw [chosen_self] at huphase
      refine ⟨[], d, rfl, hd.stay (fun m => chosen_of_ne early true) hn hu hd.store ?_⟩
      rw [hlive]
      exact ⟨hur, (if_pos ⟨rfl, hother⟩).mp huphase⟩
    · refine ⟨chosen early n false, fun d hd => ?_⟩
      obtain ⟨⟨ur, uphase⟩, hu, hur, huphase⟩ := hd.tasks n _ ht
      obtain rfl : ur = r' := hur
      rw [chosen_self] at huphase
      obtain rfl : uphase = .arrived := (if_neg (by simp)).mp huphase
      refine hone ⟨ur, observe hash ur [] (some found)⟩ .go hd
        (fun m => chosen_of_ne early false) hu ?_ ?_
      · simp only [resume, hkey, hlive]
      · rw [hlive]
        exact matches_observe _
  | @answered claim answer hredis =>
    refine ⟨early, fun d hd => ?_⟩
    obtain ⟨⟨ur, uphase⟩, hu, hur, huphase⟩ := hd.tasks n _ ht
    exact ⟨[], d, rfl, hd.stay (fun _ _ => rfl) hn hu hd.store ⟨hur, huphase⟩⟩
  | @settled phase claim answer hclaim hwrites hanswer =>
    refine ⟨early, fun d hd => ?_⟩
    obtain ⟨⟨ur, uphase⟩, hu, hur, huphase⟩ := hd.tasks n _ ht
    obtain rfl : ur = r' := hur
    cases phase with
    | writing claim' answer' =>
      obtain rfl := hanswer answer' rfl
      obtain rfl : claim' = claim := Option.some.inj hwrites
      obtain rfl : uphase = .handling claim' := huphase
      exact hone _ (.answer answer') hd (fun _ _ => rfl) hu rfl ⟨rfl, rfl⟩
    | _ => cases hwrites

theorem follows_step {e : Event Request Input Nat} {c' : Config Server Task}
    (hallows : (refusedByOther hash).Allows c e)
    (hstep : (idempotencyMiddleware hash ttlMs .redis).step c e = some c') (early : Nat → Bool) :
    ∃ early', ∀ d, Follows hash early' c d → ∃ es d',
      (idempotencyMiddleware hash ttlMs .memory).run d es = some d' ∧ Follows hash early c' d' := by
  cases e with
  | call r =>
    obtain ⟨s, t, hcall, rfl⟩ := Machine.step_call hstep
    obtain ⟨rfl, rfl⟩ := Prod.mk.inj (Option.some.inj hcall)
    refine ⟨early, fun d hd => ⟨[.call r], ⟨d.shared, d.tasks ++ [⟨r, .arrived⟩]⟩, rfl, ?_⟩⟩
    exact hd.call
  | resume n i =>
    obtain ⟨t, s, t', ht, hresume, rfl⟩ := Machine.step_resume hstep
    exact follows_resume ht (hallows t ht) hresume early
  | env ms =>
    obtain ⟨s, henv, rfl⟩ := Machine.step_env hstep
    obtain rfl := Option.some.inj henv
    refine ⟨early, fun d hd => ⟨[.env ms], ⟨{ d.shared with now := d.shared.now + ms }, d.tasks⟩,
      rfl, ?_, hd.length, hd.tasks⟩⟩
    rw [hd.store]

/-! ## Conflicts -/

variable (hash ttlMs) in
theorem conflicts_modular (backend : Backend) :
    Modular (idempotencyMiddleware hash ttlMs backend) (refusedByOther hash) (fun _ => True)
      (fun _ t => t.Conflicts hash) (fun _ _ => True) where
  symm _ := trivial
  call _ hcall := by
    obtain ⟨rfl, rfl⟩ := Prod.mk.inj (Option.some.inj hcall)
    refine ⟨trivial, fun met hmet => ?_, fun u hu => ⟨hu, trivial⟩⟩
    cases hmet
  env _ _ := ⟨trivial, fun u hu => hu⟩
  resume {s t i s' t' others} _ ht hothers hguard hresume := by
    refine ⟨trivial, ?_, fun u hu => ⟨(hothers u hu).1, trivial⟩⟩
    obtain ⟨hrequest, hsegment⟩ := segment_of_resume hash ttlMs hresume
    obtain ⟨r, phase⟩ := t
    obtain ⟨r', phase'⟩ := t'
    obtain rfl : r' = r := hrequest
    intro met hmet
    cases hsegment with
    | @observed _ key refused hkey hphase =>
      have hobserve : observe hash r' refused (s.live key) = .conflict met := hmet
      cases hlive : s.live key with
      | none =>
        obtain ⟨-, -, -, hne⟩ | ⟨slot, rfl, rfl⟩ := hphase
        · exact absurd hlive hne
        · rw [hlive] at hobserve
          obtain rfl := Phase.conflict.inj hobserve
          exact ⟨slot, List.mem_cons_self, hguard slot key rfl hkey hlive⟩
      | some found =>
        rw [hlive] at hobserve
        rcases Decidable.em (found.entry.fingerprint = fingerprint hash r') with heq | hne
        · rw [observe_same _ heq] at hobserve
          split at hobserve <;> cases hobserve
        · rw [observe_conflict hne] at hobserve
          obtain rfl := Phase.conflict.inj hobserve
          exact ⟨found, List.mem_append_right _ List.mem_cons_self, hne⟩
    | _ => cases hmet

/-- **Redis refines memory** in every run in which no entry that a request was refused for
vanishes before the request has read it, unless it was the entry of another request. -/
theorem redis_refines_memory (now : Nat) (es : List (Event Request Input Nat))
    (c : Config Server Task)
    (hmeets : (idempotencyMiddleware hash ttlMs .redis).Meets (refusedByOther hash) ⟨.start now, []⟩ es)
    (hrun : (idempotencyMiddleware hash ttlMs .redis).run ⟨.start now, []⟩ es = some c) :
    (∃ es' d, (idempotencyMiddleware hash ttlMs .memory).run ⟨.start now, []⟩ es' = some d ∧
      Refines c d) ∧ ∀ t ∈ c.tasks, t.Conflicts hash := by
  constructor
  · have hinit : ∀ early, Follows hash early (⟨.start now, []⟩ : Config Server Task) ⟨.start now, []⟩ :=
      fun early => ⟨rfl, rfl, fun n t ht => by cases ht⟩
    obtain ⟨es', d, hrun', hfollows⟩ := Machine.run_simulation (Follows hash)
      (fun c e c' hallows hstep early => follows_step hallows hstep early) hinit hmeets hrun
      (fun _ => false)
    refine ⟨es', d, hrun', hfollows.store, hfollows.length, fun n t ht => ?_, ?_⟩
    · obtain ⟨u, hu, hrequest, hphase⟩ := hfollows.tasks n t ht
      exact ⟨u, hu, hrequest, outcome_of_matches ⟨hrequest, hphase⟩⟩
    · intro n t claim a ht hphase
      obtain ⟨u, hu, -, huphase⟩ := hfollows.tasks n t ht
      rw [hphase] at huphase
      exact ⟨u, hu, huphase⟩
  · have hmodular := conflicts_modular hash ttlMs .redis
    exact (hmodular.run (Holds.init trivial) hmeets hrun).tasks

/-! ## Requests that are all alike -/

variable (hash) in
/-- What holds of a request when all have one fingerprint: it is not refused. -/
structure Task.OneOf (fp : String) (t : Task) : Prop where
  request : fingerprint hash t.request = fp
  claim : ∀ c, t.phase.claim? = some c → fingerprint hash c.request = fp
  outcome : t.phase.outcome ≠ .conflict
  settled : ∀ slot, t.phase ≠ .getting slot

variable (hash ttlMs) in
theorem alike_modular (fp : String) :
    Modular ((idempotencyMiddleware hash ttlMs .memory).only fun r => fingerprint hash r = fp)
      Guard.any (fun s => ∀ key slot, s.entries.get? key = some slot → slot.entry.fingerprint = fp)
      (fun _ t => t.OneOf hash fp) (fun _ _ => True) where
  symm _ := trivial
  call hs hcall := by
    simp only [Machine.only] at hcall
    split at hcall
    · rename_i hfp
      obtain ⟨rfl, rfl⟩ := Prod.mk.inj (Option.some.inj hcall)
      refine ⟨hs, ⟨by simpa using hfp, fun c hc => ?_, fun h => ?_, fun slot h => ?_⟩,
        fun u hu => ⟨hu, trivial⟩⟩
      · cases hc
      · cases h
      · cases h
    · cases hcall
  env hs henv := by
    obtain rfl := Option.some.inj henv
    exact ⟨hs, fun u hu => hu⟩
  resume {s t i s' t' others} hs ht hothers _ hresume := by
    have hrest : ∀ u ∈ others, Task.OneOf hash fp u ∧ True :=
      fun u hu => ⟨(hothers u hu).1, trivial⟩
    have hresume : resume hash ttlMs .memory s t i = some (s', t') := hresume
    obtain ⟨hrequest, hsegment⟩ := segment_of_resume hash ttlMs hresume
    obtain ⟨r, phase⟩ := t
    obtain ⟨r', phase'⟩ := t'
    obtain rfl : r' = r := hrequest
    cases hsegment with
    | passed hkey =>
      refine ⟨hs, ⟨ht.request, fun c hc => ?_, fun h => ?_, fun slot h => ?_⟩, hrest⟩
      · cases hc
      · cases h
      · cases h
    | @claimed key hkey hlive =>
      refine ⟨fun k slot hslot => ?_, ⟨ht.request, fun c hc => ?_, fun h => ?_, fun slot h => ?_⟩,
        hrest⟩
      · rw [get?_claim] at hslot
        split at hslot
        · obtain rfl := Option.some.inj hslot
          exact ht.request
        · exact hs k slot hslot
      · obtain rfl := Option.some.inj hc
        exact ht.request
      · cases h
      · cases h
    | refused hredis hkey hlive => cases hredis
    | @observed _ key refused hkey hphase =>
      obtain ⟨rfl, -, rfl, hlive⟩ | ⟨slot, rfl, -⟩ := hphase
      · obtain ⟨slot, hslot⟩ := Option.ne_none_iff_exists'.mp hlive
        have hfp : slot.entry.fingerprint = fingerprint hash r' :=
          (hs key slot (Option.filter_eq_some_iff.mp hslot).1).trans ht.request.symm
        have hobserve := observe_same [] hfp
        rw [← hslot] at hobserve
        refine ⟨hs, ⟨ht.request, fun c hc => ?_, fun h => ?_, fun slot h => ?_⟩, hrest⟩
        · cases (observe_claim? [] (s.live key)).symm.trans hc
        · replace h : (observe hash r' [] (s.live key)).outcome = .conflict := h
          rw [hobserve] at h
          split at h <;> cases h
        · replace h : observe hash r' [] (s.live key) = .getting _ := h
          rw [hobserve] at h
          split at h <;> cases h
      · exact absurd rfl (ht.settled slot)
    | answered hredis => cases hredis
    | @settled _ claim answer hclaim hwrites hanswer =>
      have hfp := ht.claim _ hclaim
      refine ⟨fun k slot hslot => ?_, ⟨ht.request, fun c hc => ?_, fun h => ?_, fun slot h => ?_⟩,
        hrest⟩
      · rw [get?_settle] at hslot
        split at hslot
        · split at hslot
          · obtain rfl := Option.some.inj hslot
            exact hfp
          · cases hslot
        · exact hs k slot hslot
      · obtain rfl := Option.some.inj hc
        exact hfp
      · cases h
      · cases h

/-- Over the memory store no request conflicts with requests of its own fingerprint. -/
theorem memory_alike {fp : String} {now : Nat} {es : List (Event Request Input Nat)}
    {c : Config Server Task} (hcalls : ∀ r, .call r ∈ es → fingerprint hash r = fp)
    (hrun : (idempotencyMiddleware hash ttlMs .memory).run ⟨.start now, []⟩ es = some c) :
    ∀ t ∈ c.tasks, t.phase.outcome ≠ .conflict := by
  have hmodular := alike_modular hash ttlMs fp
  rw [← Machine.run_only (p := fun r => fingerprint hash r = fp)] at hrun
  · have hholds := hmodular.run (c := ⟨.start now, []⟩) (Holds.init fun key slot hslot => by cases hslot)
      (Machine.meets_any _ _ _) hrun
    exact fun t ht => (hholds.tasks t ht).outcome
  · exact fun r hr => decide_eq_true (hcalls r hr)

end

/-- A request that is repeated while it is in progress, and again once it was answered. -/
theorem redis_refines_memory_once :
    ∃ c, (@idempotencyMiddleware Runtime.ascii id 5 .redis).run ⟨.start 0, []⟩
        [.call (publish "k" "x"), .call (publish "k" "x"), .resume 0 .go, .resume 1 .go,
          .resume 1 .go] = some c ∧
      (∃ es' d, (@idempotencyMiddleware Runtime.ascii id 5 .memory).run ⟨.start 0, []⟩ es' = some d ∧
        Refines c d) ∧ ∀ t ∈ c.tasks, @Task.Conflicts Runtime.ascii id t := by
  obtain ⟨c, hc⟩ : ∃ c, (@idempotencyMiddleware Runtime.ascii id 5 .redis).run ⟨.start 0, []⟩
      [.call (publish "k" "x"), .call (publish "k" "x"), .resume 0 .go, .resume 1 .go,
        .resume 1 .go] = some c := ⟨_, rfl⟩
  refine ⟨c, hc, @redis_refines_memory Runtime.ascii id 5 0 _ c ?_ hc⟩
  refine ⟨trivial, fun c hc => ?_⟩
  obtain rfl := Option.some.inj hc
  refine ⟨trivial, fun c hc => ?_⟩
  obtain rfl := Option.some.inj hc
  refine ⟨fun t ht refused key hphase => ?_, fun c hc => ?_⟩
  · obtain rfl := Option.some.inj ht
    cases hphase
  obtain rfl := Option.some.inj hc
  refine ⟨fun t ht refused key hphase => ?_, fun c hc => ?_⟩
  · obtain rfl := Option.some.inj ht
    cases hphase
  obtain rfl := Option.some.inj hc
  refine ⟨fun t ht refused key hphase hkey hlive => ?_, fun c hc => trivial⟩
  obtain rfl := Option.some.inj ht
  obtain rfl := Option.some.inj hkey
  cases hlive

/-- The entry expires between `SET NX` and `GET`: the repeated request conflicts with nothing but
its own entry, which the memory store never reports. -/
theorem expiry_reported_as_conflict :
    (∃ c t slot, (@idempotencyMiddleware Runtime.ascii id 5 .redis).run ⟨.start 0, []⟩
        [.call (publish "k" "x"), .call (publish "k" "x"), .resume 0 .go, .resume 1 .go, .env 5,
          .resume 1 .go] = some c ∧
      c.tasks[1]? = some t ∧ t.phase = .conflict [slot] ∧
      slot.entry.fingerprint = @fingerprint Runtime.ascii id t.request) ∧
    ∀ es d, (∀ r, .call r ∈ es → r = publish "k" "x") →
      (@idempotencyMiddleware Runtime.ascii id 5 .memory).run ⟨.start 0, []⟩ es = some d →
      ∀ t ∈ d.tasks, t.phase.outcome ≠ .conflict := by
  refine ⟨⟨_, _, _, rfl, rfl, rfl, rfl⟩, fun es d hcalls hrun => ?_⟩
  exact @memory_alike Runtime.ascii id 5 _ 0 es d (fun r hr => by rw [hcalls r hr]) hrun

end Idempotency
