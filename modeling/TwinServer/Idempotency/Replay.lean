-- SUMMARY: What two requests agree on when one receives the stored response of the other.
import TwinServer.Idempotency.Exclusive

/-!
# Replayed responses

A stored response is replayed to a request with the key and the fingerprint of the request
it was made for. The fingerprint covers the method, the path, the body as it is written,
the subject and the account; the query and the caller a handler acts for are not in it.
-/

open Js Js.Json Async

namespace Idempotency

/-! ## Agreement -/

/-- The requests differ in nothing the fingerprint covers. -/
structure Alike (r r' : Request) : Prop where
  method : r.method = r'.method
  path : r.path = r'.path
  body : r.body.map written = r'.body.map written
  subject : r.auth.map Auth.subject = r'.auth.map Auth.subject
  accounting : r.auth.bind Auth.accounting = r'.auth.bind Auth.accounting

section
variable [Runtime] (disabled : Bool) (serviceDid : Option String)

/-- The requests agree on everything the behaviour of a handler depends on. -/
structure Agree (r r' : Request) : Prop where
  method : r.method = r'.method
  path : r.path = r'.path
  query : r.query = r'.query
  body : r.body = r'.body
  caller : callerDid disabled serviceDid r = callerDid disabled serviceDid r'
  accounting : r.auth.bind Auth.accounting = r'.auth.bind Auth.accounting

end

/-! ## The fingerprint -/

theorem written_accountingJson (a : Security.AccountingContext) :
    written (accountingJson a) = accountingJson a := rfl

theorem accountingJson_injective : Function.Injective accountingJson := by
  rintro ⟨a, b, c, d⟩ ⟨a', b', c', d'⟩ h
  simp only [accountingJson, Json.object.injEq, List.cons.injEq, Prod.mk.injEq,
    Json.string.injEq, true_and, and_true] at h
  obtain ⟨rfl, rfl, rfl, rfl⟩ := h
  rfl

/-- The members of the text of a request. -/
theorem writtenMembers_fingerprintFields (r : Request) :
    writtenMembers [] (fingerprintFields r) =
      [("method", .string r.method), ("path", .string r.path)] ++
        (r.body.map fun body => ("body", written body)).toList ++
        (r.auth.map fun auth => ("subject", .string auth.subject)).toList ++
        ((r.auth.bind Auth.accounting).map fun a => ("accounting", accountingJson a)).toList := by
  obtain ⟨method, path, query, body, key, delegated, auth⟩ := r
  cases body with
  | none =>
    cases auth with
    | none => rfl
    | some auth =>
      obtain ⟨subject, claims, accounting⟩ := auth
      cases accounting <;> rfl
  | some body =>
    cases auth with
    | none => rfl
    | some auth =>
      obtain ⟨subject, claims, accounting⟩ := auth
      cases accounting <;> rfl

/-- Lists that begin with an optional member, and have no other of its name. -/
theorem optional_member {α : Type} {k : String} {f : α → Json} {o o' : Option α}
    {xs ys : List (String × Json)} (hxs : ∀ e ∈ xs, e.1 ≠ k) (hys : ∀ e ∈ ys, e.1 ≠ k)
    (h : (o.map fun a => (k, f a)).toList ++ xs = (o'.map fun a => (k, f a)).toList ++ ys) :
    o.map f = o'.map f ∧ xs = ys := by
  cases o with
  | none =>
    cases o' with
    | none => exact ⟨rfl, h⟩
    | some b =>
      obtain rfl : xs = (k, f b) :: ys := h
      exact absurd rfl (hxs _ List.mem_cons_self)
  | some a =>
    cases o' with
    | none =>
      obtain rfl : (k, f a) :: xs = ys := h
      exact absurd rfl (hys _ List.mem_cons_self)
    | some b =>
      obtain ⟨hmember, hrest⟩ := List.cons.inj h
      exact ⟨congrArg some (Prod.mk.inj hmember).2, hrest⟩

/-- The members after the body. -/
def callerFields (r : Request) : List (String × Json) :=
  (r.auth.map fun auth => ("subject", Json.string auth.subject)).toList ++
    ((r.auth.bind Auth.accounting).map fun a => ("accounting", accountingJson a)).toList

theorem callerFields_ne_body (r : Request) : ∀ e ∈ callerFields r, e.1 ≠ "body" := by
  intro e he
  rcases List.mem_append.mp he with he | he
  · obtain ⟨auth, -, rfl⟩ := Option.map_eq_some_iff.mp (Option.mem_toList.mp he)
    simp
  · obtain ⟨a, -, rfl⟩ := Option.map_eq_some_iff.mp (Option.mem_toList.mp he)
    simp

theorem callerFields_eq {r r' : Request} (h : callerFields r = callerFields r') :
    r.auth.map Auth.subject = r'.auth.map Auth.subject ∧
      r.auth.bind Auth.accounting = r'.auth.bind Auth.accounting := by
  have hne : ∀ q : Request, ∀ e ∈
      ((q.auth.bind Auth.accounting).map fun a => ("accounting", accountingJson a)).toList,
      e.1 ≠ "subject" := by
    intro q e he
    obtain ⟨a, -, rfl⟩ := Option.map_eq_some_iff.mp (Option.mem_toList.mp he)
    simp
  obtain ⟨hsubject, hrest⟩ :=
    optional_member (f := fun auth : Auth => Json.string auth.subject) (hne r) (hne r') h
  constructor
  · refine Option.map_injective (fun s t hst => Json.string.inj hst) ?_
    rw [Option.map_map, Option.map_map]
    exact hsubject
  · refine Option.map_injective accountingJson_injective ?_
    have hnone : ∀ e ∈ ([] : List (String × Json)), e.1 ≠ "accounting" := fun _ he => by cases he
    exact (optional_member hnone hnone (congrArg (· ++ []) hrest)).1

theorem fields_eq_iff (r r' : Request) :
    writtenMembers [] (fingerprintFields r) = writtenMembers [] (fingerprintFields r') ↔
      Alike r r' := by
  rw [writtenMembers_fingerprintFields, writtenMembers_fingerprintFields]
  simp only [List.append_assoc, List.cons_append, List.nil_append]
  constructor
  · intro h
    obtain ⟨hmethod, h⟩ := List.cons.inj h
    obtain ⟨hpath, h⟩ := List.cons.inj h
    obtain ⟨hbody, h⟩ := optional_member (callerFields_ne_body r) (callerFields_ne_body r') h
    obtain ⟨hsubject, haccounting⟩ := callerFields_eq h
    exact ⟨Json.string.inj (Prod.mk.inj hmethod).2, Json.string.inj (Prod.mk.inj hpath).2, hbody,
      hsubject, haccounting⟩
  · rintro ⟨hmethod, hpath, hbody, hsubject, haccounting⟩
    have hmember : ∀ {α : Type} (o : Option α) (f : α → Json) (k : String),
        (o.map fun a => (k, f a)) = (o.map f).map fun v => (k, v) :=
      fun o f k => by rw [Option.map_map]; rfl
    have hsubjects : ∀ q : Request, (q.auth.map fun auth => ("subject", Json.string auth.subject)) =
        (q.auth.map Auth.subject).map fun s => ("subject", Json.string s) :=
      fun q => by rw [Option.map_map]; rfl
    rw [hmethod, hpath, hmember r.body, hmember r'.body, hbody, hsubjects r, hsubjects r', hsubject,
      haccounting]

section
variable [Runtime] [NumberText] (hash : String → String)

/-- The text the fingerprint of a request is taken of. -/
def fingerprintText (r : Request) : String := stringify (.object (fingerprintFields r))

theorem fingerprintText_eq_iff (r r' : Request) :
    fingerprintText r = fingerprintText r' ↔ Alike r r' := by
  unfold fingerprintText
  rw [stringify_eq_iff, ← fields_eq_iff]
  exact ⟨fun h => Json.object.inj h, fun h => congrArg Json.object h⟩

omit [NumberText] in
theorem fingerprint_eq (r : Request) : fingerprint hash r = hash (fingerprintText r) := rfl

end

/-! ## What the store remembers -/

section
variable [Runtime] (hash : String → String) (ttlMs : ℕ+)

/-- Every entry has the fingerprint of the request it was made for, and lies under the key
of that request. -/
def Server.Faithful (s : Server) : Prop := ∀ key slot, s.entries.get? key = some slot →
  slot.entry.fingerprint = fingerprint hash slot.claim.request ∧
    slot.claim.request.key? = some key

structure Task.Faithful (t : Task) : Prop where
  claim : ∀ c, t.phase.claim? = some c → c.request.key? = some c.key
  replayed : ∀ slot, t.phase = .replayed slot →
    fingerprint hash slot.claim.request = fingerprint hash t.request ∧
      slot.claim.request.key? = t.request.key? ∧ slot.claim.request.key? ≠ none

variable {hash} {s : Server} {r : Request} {key : String}

theorem Server.Faithful.claim (hs : s.Faithful hash) (hkey : r.key? = some key) :
    (s.claim hash ttlMs r key).Faithful hash := by
  intro k slot hslot
  rw [get?_claim] at hslot
  split at hslot
  case isTrue hk =>
    obtain rfl := Option.some.inj hslot
    exact ⟨rfl, hk ▸ hkey⟩
  case isFalse => exact hs k slot hslot

theorem Server.Faithful.settle {c : Claim} {a : Answer} (hs : s.Faithful hash)
    (hc : c.request.key? = some c.key) : (s.settle hash ttlMs c a).Faithful hash := by
  intro k slot hslot
  rw [get?_settle] at hslot
  split at hslot
  case isTrue hk =>
    split at hslot
    · obtain rfl := Option.some.inj hslot
      exact ⟨rfl, hk ▸ hc⟩
    · cases hslot
  case isFalse => exact hs k slot hslot

omit [Runtime] in
theorem Server.get?_of_live {slot : Slot} (h : s.live key = some slot) :
    s.entries.get? key = some slot := (Option.filter_eq_some_iff.mp h).1

/-- A request replays the entry it has found, and the fingerprint is its own. -/
theorem observe_replayed {refused : List Slot} {found : Option Slot} {slot : Slot}
    (h : observe hash r refused found = .replayed slot) :
    found = some slot ∧ slot.entry.fingerprint = fingerprint hash r ∧
      slot.entry.state = .complete := by
  cases found with
  | none => cases h
  | some slot' =>
    simp only [observe] at h
    split at h
    · cases h
    · rename_i hfingerprint
      split at h
      · rename_i hcomplete
        obtain rfl := Phase.replayed.inj h
        exact ⟨rfl, Decidable.not_not.mp hfingerprint, hcomplete⟩
      · cases h

variable (hash) in
theorem faithful_modular (backend : Backend) :
    Modular (idempotencyMiddleware hash ttlMs backend) Guard.any (Server.Faithful hash)
      (fun _ t => t.Faithful hash) (fun _ _ => True) where
  symm _ := trivial
  call hs hcall := by
    obtain ⟨rfl, rfl⟩ := Prod.mk.inj (Option.some.inj hcall)
    refine ⟨hs, ⟨fun c hc => ?_, fun slot hslot => ?_⟩, fun u hu => ⟨hu, trivial⟩⟩
    · cases hc
    · cases hslot
  env hs henv := by
    obtain rfl := Option.some.inj henv
    exact ⟨hs, fun u hu => hu⟩
  resume {s t i s' t' others} hs ht hothers _ hresume := by
    have hrest : ∀ u ∈ others, Task.Faithful hash u ∧ True := fun u hu => ⟨(hothers u hu).1, trivial⟩
    obtain ⟨hrequest, hsegment⟩ := segment_of_resume hash ttlMs hresume
    obtain ⟨r, phase⟩ := t
    obtain ⟨r', phase'⟩ := t'
    obtain rfl : r' = r := hrequest
    cases hsegment with
    | passed hkey =>
      refine ⟨hs, ⟨fun c hc => ?_, fun slot hslot => ?_⟩, hrest⟩
      · cases hc
      · cases hslot
    | claimed hkey hlive =>
      refine ⟨hs.claim ttlMs hkey, ⟨fun c hc => ?_, fun slot hslot => ?_⟩, hrest⟩
      · obtain rfl := Option.some.inj hc
        exact hkey
      · cases hslot
    | refused hredis hkey hlive =>
      refine ⟨hs, ⟨fun c hc => ?_, fun slot hslot => ?_⟩, hrest⟩
      · cases hc
      · cases hslot
    | @observed _ key refused hkey hphase =>
      refine ⟨hs, ⟨fun c hc => ?_, fun slot hslot => ?_⟩, hrest⟩
      · have hnone : (observe hash r' refused (s.live key)).claim? = none := observe_claim? _ _
        cases hc.symm.trans hnone
      · obtain ⟨hlive, hfingerprint, -⟩ := observe_replayed hslot
        obtain ⟨hentry, hslotKey⟩ := hs _ _ (Server.get?_of_live hlive)
        exact ⟨hentry.symm.trans hfingerprint, hslotKey.trans hkey.symm, by simp [hslotKey]⟩
    | answered hredis =>
      refine ⟨hs, ⟨fun c hc => ht.claim c hc, fun slot hslot => ?_⟩, hrest⟩
      cases hslot
    | settled hclaim hwrites hanswer =>
      have hc := ht.claim _ hclaim
      refine ⟨hs.settle ttlMs hc, ⟨fun d hd => ?_, fun slot hslot => ?_⟩, hrest⟩
      · obtain rfl := Option.some.inj hd
        exact hc
      · cases hslot

theorem faithful_start (now : Nat) : (Server.start now).Faithful hash :=
  fun key slot hslot => by cases hslot

/-! ## A replay -/

/-- A response that was stored is there until its end. -/
theorem live_settle {c : Claim} {a : Answer} (ha : a.status < 500) :
    (s.settle hash ttlMs c a).live c.key = some ⟨c, completed hash c a, s.now + ttlMs⟩ := by
  unfold Server.live
  rw [get?_settle, if_pos rfl, if_pos ha]
  apply Option.filter_eq_some_iff.mpr
  refine ⟨rfl, decide_eq_true ?_⟩
  exact Nat.lt_add_of_pos_right ttlMs.pos

theorem observe_completed {r₁ r₂ : Request} {c : Claim} {a : Answer} {vanishes : Nat}
    (refused : List Slot) (hc : c.request = r₁) (h : fingerprint hash r₁ = fingerprint hash r₂) :
    observe hash r₂ refused (some ⟨c, completed hash c a, vanishes⟩) =
      .replayed ⟨c, completed hash c a, vanishes⟩ := by
  have hsame : (completed hash c a).fingerprint = fingerprint hash r₂ := by
    rw [← h, ← hc]
    rfl
  simp only [observe, hsame, ne_eq, not_true_eq_false, if_false]
  rfl

variable (hash) in
/-- One request claims the key and is answered; the other comes after it. -/
theorem replays (backend : Backend) {r₁ r₂ : Request} (h₁ : r₁.key? = some key)
    (h₂ : r₂.key? = some key) (h : fingerprint hash r₁ = fingerprint hash r₂) :
    ∃ es c t slot, (idempotencyMiddleware hash ttlMs backend).run ⟨.start 0, []⟩ es = some c ∧
      t ∈ c.tasks ∧ t.request = r₂ ∧ t.phase = .replayed slot ∧ slot.claim.request = r₁ := by
  let M := idempotencyMiddleware hash ttlMs backend
  let claim := (Server.start 0).nextClaim ttlMs r₁ key
  let s := (Server.start 0).claim hash ttlMs r₁ key
  let answer : Answer := ⟨200, none⟩
  let slot : Slot := ⟨claim, completed hash claim answer, s.now + ttlMs⟩
  let answered : Config Server Task := ⟨s.settle hash ttlMs claim answer, [⟨r₁, .answered claim answer⟩]⟩
  have hclaim : M.step ⟨.start 0, [⟨r₁, .arrived⟩]⟩ (.resume 0 .go) =
      some ⟨s, [⟨r₁, .handling claim⟩]⟩ := by
    have hfree : (Server.start 0).live key = none := rfl
    simp [M, Machine.step, idempotencyMiddleware, resume, h₁, hfree, s, claim]
  have hlive : answered.shared.live key = some slot := live_settle ttlMs (by decide)
  have hobserve : ∀ refused, observe hash r₂ refused (some slot) = .replayed slot :=
    fun refused => observe_completed refused rfl h
  -- the second request, once the response of the first is stored
  have hsecond : ∃ es c t, M.run answered es = some c ∧ t ∈ c.tasks ∧ t.request = r₂ ∧
      t.phase = .replayed slot := by
    cases backend with
    | memory =>
      refine ⟨[.call r₂, .resume 1 .go], ⟨answered.shared, answered.tasks ++ [⟨r₂, .replayed slot⟩]⟩,
        _, ?_, List.mem_append_right _ List.mem_cons_self, rfl, rfl⟩
      simp [M, Machine.run, Machine.step, idempotencyMiddleware, resume, h₂, hlive, hobserve, answered]
    | redis =>
      refine ⟨[.call r₂, .resume 1 .go, .resume 1 .go],
        ⟨answered.shared, answered.tasks ++ [⟨r₂, .replayed slot⟩]⟩,
        _, ?_, List.mem_append_right _ List.mem_cons_self, rfl, rfl⟩
      simp [M, Machine.run, Machine.step, idempotencyMiddleware, resume, h₂, hlive, hobserve, answered]
  have hfirst : ∃ es, M.run ⟨.start 0, []⟩ es = some answered := by
    cases backend with
    | memory =>
      refine ⟨[.call r₁, .resume 0 .go, .resume 0 (.answer answer)], ?_⟩
      show (M.step ⟨.start 0, [⟨r₁, .arrived⟩]⟩ (.resume 0 .go)).bind _ = _
      rw [hclaim]
      rfl
    | redis =>
      refine ⟨[.call r₁, .resume 0 .go, .resume 0 (.answer answer), .resume 0 .go], ?_⟩
      show (M.step ⟨.start 0, [⟨r₁, .arrived⟩]⟩ (.resume 0 .go)).bind _ = _
      rw [hclaim]
      rfl
  obtain ⟨es, hes⟩ := hfirst
  obtain ⟨es', c, t, hes', ht, hrequest, hphase⟩ := hsecond
  refine ⟨es ++ es', c, t, slot, ?_, ht, hrequest, hphase, rfl⟩
  rw [Machine.run_append _ hes]
  exact hes'

end

/-! ## Replays are sound -/

section
variable [Runtime] (hash : String → String) (ttlMs : ℕ+) (backend : Backend) (disabled : Bool)
  (serviceDid : Option String)

/-- Whenever the second request receives the stored response of the first, the two agree. -/
def ReplaySound (r₁ r₂ : Request) : Prop :=
  ∀ now es c, (idempotencyMiddleware hash ttlMs backend).run ⟨.start now, []⟩ es = some c →
    ∀ t ∈ c.tasks, t.request = r₂ → ∀ slot, t.phase = .replayed slot → slot.claim.request = r₁ →
      Agree disabled serviceDid r₁ r₂

/-- **A replay is sound** exactly for requests that, if they share a key and everything the
fingerprint covers, share the query, the body as a value and the caller as well. -/
theorem replay_sound_iff [NumberText] (r₁ r₂ : Request)
    (hcollision : hash (fingerprintText r₁) = hash (fingerprintText r₂) →
      fingerprintText r₁ = fingerprintText r₂) :
    ReplaySound hash ttlMs backend disabled serviceDid r₁ r₂ ↔
      (r₁.key? = r₂.key? → r₁.key? ≠ none → Alike r₁ r₂ → r₁.query = r₂.query ∧
        r₁.body = r₂.body ∧ callerDid disabled serviceDid r₁ = callerDid disabled serviceDid r₂) := by
  constructor
  · intro hsound hkeys hsome halike
    obtain ⟨key, hkey⟩ := Option.ne_none_iff_exists'.mp hsome
    have htext : fingerprint hash r₁ = fingerprint hash r₂ := by
      rw [fingerprint_eq, fingerprint_eq, (fingerprintText_eq_iff r₁ r₂).mpr halike]
    obtain ⟨es, c, t, slot, hrun, ht, hrequest, hphase, hclaim⟩ :=
      replays hash ttlMs backend hkey (hkeys ▸ hkey) htext
    have hagree := hsound 0 es c hrun t ht hrequest slot hphase hclaim
    exact ⟨hagree.query, hagree.body, hagree.caller⟩
  · rintro hcond now es c hrun t ht rfl slot hphase rfl
    have hmodular := faithful_modular hash ttlMs backend
    have hholds := hmodular.run (Holds.init (faithful_start now)) (Machine.meets_any _ _ _) hrun
    obtain ⟨hfingerprint, hkeys, hsome⟩ := (hholds.tasks t ht).replayed slot hphase
    have halike := (fingerprintText_eq_iff _ _).mp (hcollision hfingerprint)
    obtain ⟨hquery, hbody, hcaller⟩ := hcond hkeys hsome halike
    exact ⟨halike.method, halike.path, hquery, hbody, hcaller, halike.accounting⟩

end

/-- An evaluation of the maturity of a twin; it is recorded on chain when the query says so. -/
def evaluate (twin : String) (query : List (String × Json)) : Request where
  method := "POST"
  path := "/twins/" ++ twin ++ "/maturity/evaluate"
  query := .object query
  body := some (.object [])
  idempotencyKey := some "k"
  delegated := none
  auth := some ⟨"operator", none, none⟩

/-- Evaluations of two twins under one key. -/
theorem replay_sound_twins :
    @ReplaySound Runtime.exact id 5 .memory false none (evaluate "0x1" [])
      (evaluate "0x2" [("commit", .string "true")]) := by
  refine (@replay_sound_iff Runtime.exact id 5 .memory false none numberText_exact _ _
    (fun h => h)).mpr fun _ _ halike => ?_
  exact absurd halike.path (by decide)

/-- The evaluation that is to be recorded is answered with the stored response of the one that
is not. -/
theorem query_not_compared :
    ¬ @ReplaySound Runtime.exact id 5 .memory false none (evaluate "0x1" [])
      (evaluate "0x1" [("commit", .string "true")]) := by
  intro hsound
  obtain ⟨es, c, t, slot, hrun, ht, hrequest, hphase, hclaim⟩ :=
    @replays Runtime.exact id 5 "k" .memory (evaluate "0x1" [])
      (evaluate "0x1" [("commit", .string "true")]) rfl rfl rfl
  have hagree := hsound 0 es c hrun t ht hrequest slot hphase hclaim
  have hquery := @Agree.query Runtime.exact false none _ _ hagree
  cases Json.object.inj hquery

end Idempotency
