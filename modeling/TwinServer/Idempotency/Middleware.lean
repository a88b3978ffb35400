-- SUMMARY: The idempotency middleware over the memory and the Redis store: requests, claims, stored responses, and requests as tasks.
import Mathlib.Data.PNat.Basic
import TwinServer.Base.Async
import TwinServer.Base.Serial
import TwinServer.Security.Tenants

/-!
# The idempotency middleware

`src/security/idempotency.ts`. A request that carries a key first claims the key; the
handler then runs, and its response is stored under the key, or the key is freed when the
response reports a failure of the server. A request that finds the key claimed is
answered without its handler.

The two stores hold the same entries. The memory store claims in one step and stores
within the response. The Redis store asks for the claim, reads the entry when the claim is
refused, and writes a response some time after it was sent. An entry is there until the
clock reaches its end: the field `expiresAt` in memory, the expiry of the key in Redis.
The lifetime of an entry is positive, as Redis requires.
-/

open Js Js.Json Async Security

namespace Idempotency

/-! ## Requests -/

structure Auth where
  subject : String
  claims : Option Json
  accounting : Option AccountingContext

structure Request where
  method : String
  /-- The path below the router. -/
  path : String
  query : Json
  body : Option Json
  /-- The header `idempotency-key`. -/
  idempotencyKey : Option String
  /-- The header `x-objectid-caller-did`. -/
  delegated : Option String
  auth : Option Auth

def mutating (method : String) : Bool := ["POST", "PUT", "PATCH", "DELETE"].contains method

/-- The key a request is handled under, if it is not passed on. -/
def Request.key? (r : Request) : Option String :=
  if mutating r.method then r.idempotencyKey.filter (· != "") else none

/-- `request.auth?.accounting` as a value. -/
def accountingJson (a : AccountingContext) : Json :=
  .object [("tenantId", .string a.tenantId), ("customerId", .string a.customerId),
    ("ownerDid", .string a.ownerDid), ("subscriptionId", .string a.subscriptionId)]

/-- The object the fingerprint is taken of; what is undefined has no member. -/
def fingerprintFields (r : Request) : List (String × Json) :=
  [("method", .string r.method), ("path", .string r.path)] ++
    (r.body.map fun body => ("body", body)).toList ++
    (r.auth.map fun auth => ("subject", .string auth.subject)).toList ++
    ((r.auth.bind Auth.accounting).map fun a => ("accounting", accountingJson a)).toList

/-- The caller a handler acts for. `serviceDid` and whether authentication is disabled are
configured. -/
def callerDid [Runtime] (disabled : Bool) (serviceDid : Option String) (r : Request) :
    Option String :=
  let claims := r.auth.bind Auth.claims
  let claim (k : String) := claims.bind (·.get? k)
  match claim "twinSession" with
  | some (.bool true) =>
    match claim "did" with
    | none => some "undefined"
    | some did => did.toString?
  | _ =>
    match r.auth.bind Auth.accounting with
    | some accounting => some accounting.ownerDid
    | none =>
      textOf? (coalesce (claim "did")
        (coalesce (if disabled then none else r.delegated.map .string)
          (coalesce (claim "sub")
            (coalesce (serviceDid.map .string) (r.auth.map fun auth => .string auth.subject)))))

/-! ## Entries -/

inductive EntryState where
  | pending | complete
  deriving DecidableEq

structure IdempotencyEntry where
  fingerprint : String
  status : Option Nat := none
  body : Option Json := none
  state : EntryState

/-- A key that a request has acquired, by the number of the acquisition; `acquiredAt` is when, and
`deadline` when the claim runs out. -/
structure Claim where
  id : Nat
  request : Request
  key : String
  acquiredAt : Nat
  deadline : Nat

/-- An entry in a store, the claim it belongs to, and when it vanishes. -/
structure Slot where
  claim : Claim
  entry : IdempotencyEntry
  vanishes : Nat

/-- What a handler passes to `response.json`, with the status of the response. -/
structure Answer where
  status : Nat
  body : Option Json

inductive Backend where
  | memory | redis
  deriving DecidableEq

/-- The store, the clock, and what has happened: the claims in the order in which they were
acquired, and the responses that were stored over the entry of another claim. -/
structure Server where
  now : Nat
  entries : Record Slot := []
  claimed : List Claim := []
  overwritten : List (Claim × Claim) := []

/-- The entry a store has for a key. -/
def Server.live (s : Server) (key : String) : Option Slot :=
  (s.entries.get? key).filter fun slot => s.now < slot.vanishes

/-! ## Requests as tasks -/

inductive Phase where
  | arrived
  /-- `SET NX` was refused because of an entry, `GET` is under way. -/
  | getting (refused : Slot)
  /-- The handler runs. -/
  | handling (claim : Claim)
  /-- The handler has answered, the entry is being written or deleted. -/
  | writing (claim : Claim) (answer : Answer)
  | answered (claim : Claim) (answer : Answer)
  /-- The stored response was sent. -/
  | replayed (slot : Slot)
  /-- `IDEMPOTENCY_CONFLICT`, with the entries the store has met while the request acquired. -/
  | conflict (met : List Slot)
  /-- `IDEMPOTENCY_IN_PROGRESS`. -/
  | inProgress
  /-- Passed on without a key. -/
  | passed

structure Task where
  request : Request
  phase : Phase

inductive Input where
  | go
  | answer (answer : Answer)

section
variable [Runtime] (hash : String → String) (ttlMs : ℕ+)

/-- `createHash("sha256")` over the text of the request. -/
def fingerprint (r : Request) : String := hash (stringify (.object (fingerprintFields r)))

/-- The next claim of a server. -/
def Server.nextClaim (s : Server) (r : Request) (key : String) : Claim where
  id := s.claimed.length
  request := r
  key
  acquiredAt := s.now
  deadline := s.now + ttlMs

/-- The key is free: an entry that has vanished is replaced. -/
def Server.claim (s : Server) (r : Request) (key : String) : Server :=
  let claim := s.nextClaim ttlMs r key
  { s with
    entries := (s.entries.delete key).set key
      { claim, entry := { fingerprint := fingerprint hash r, state := .pending },
        vanishes := s.now + ttlMs }
    claimed := s.claimed ++ [claim] }

/-- The entry of a response. -/
def completed (claim : Claim) (answer : Answer) : IdempotencyEntry where
  fingerprint := fingerprint hash claim.request
  status := some answer.status
  body := answer.body
  state := .complete

/-- The entry of another claim that a response is stored over. -/
def Server.replaced (s : Server) (claim : Claim) : List (Claim × Claim) :=
  match s.live claim.key with
  | some slot => if slot.claim.id = claim.id then [] else [(claim, slot.claim)]
  | none => []

/-- `store.put` of a response, `store.delete` after a failure of the server. -/
def Server.settle (s : Server) (claim : Claim) (answer : Answer) : Server :=
  { s with
    entries := if answer.status < 500 then
        s.entries.set claim.key
          { claim, entry := completed hash claim answer, vanishes := s.now + ttlMs }
      else s.entries.delete claim.key
    overwritten := s.overwritten ++ s.replaced claim }

/-- What a request that was refused the key makes of the entry it has found; `refused` are the
entries that were met before. -/
def observe (r : Request) (refused : List Slot) : Option Slot → Phase
  | none => .conflict refused
  | some slot =>
    if slot.entry.fingerprint ≠ fingerprint hash r then .conflict (refused ++ [slot])
    else if slot.entry.state = .complete then .replayed slot
    else .inProgress

def resume (backend : Backend) (s : Server) (t : Task) (i : Input) : Option (Server × Task) :=
  match t.phase, i with
  | .arrived, .go =>
    match t.request.key? with
    | none => some (s, { t with phase := .passed })
    | some key =>
      match s.live key with
      | none => some (s.claim hash ttlMs t.request key,
          { t with phase := .handling (s.nextClaim ttlMs t.request key) })
      | some slot =>
        match backend with
        | .memory => some (s, { t with phase := observe hash t.request [] (some slot) })
        | .redis => some (s, { t with phase := .getting slot })
  | .getting refused, .go =>
    t.request.key?.map fun key =>
      (s, { t with phase := observe hash t.request [refused] (s.live key) })
  | .handling claim, .answer answer =>
    match backend with
    | .memory => some (s.settle hash ttlMs claim answer, { t with phase := .answered claim answer })
    | .redis => some (s, { t with phase := .writing claim answer })
  | .writing claim answer, .go =>
    some (s.settle hash ttlMs claim answer, { t with phase := .answered claim answer })
  | _, _ => none

/-- Requests over one store. -/
def idempotencyMiddleware (backend : Backend) : Machine Server Task Request Input Nat where
  call s r := some (s, ⟨r, .arrived⟩)
  resume := resume hash ttlMs backend
  env s ms := some { s with now := s.now + ms }

/-! ## What a segment can do -/

/-- The claim whose response a segment stores or deletes. -/
def writes (backend : Backend) (t : Task) : Option Claim :=
  match t.phase, backend with
  | .handling claim, .memory => some claim
  | .writing claim _, _ => some claim
  | _, _ => none

/-- What a request holds a claim for, from the acquisition on. -/
def Phase.claim? : Phase → Option Claim
  | .handling claim | .writing claim _ | .answered claim _ => some claim
  | _ => none

/-- The answer of the handler, once it has answered. -/
def Phase.answer? : Phase → Option Answer
  | .writing _ answer | .answered _ answer => some answer
  | _ => none

inductive Segment (backend : Backend) (s : Server) (r : Request) : Phase → Server → Phase → Prop where
  | passed (hkey : r.key? = none) : Segment backend s r .arrived s .passed
  | claimed {key : String} (hkey : r.key? = some key) (hlive : s.live key = none) :
    Segment backend s r .arrived (s.claim hash ttlMs r key) (.handling (s.nextClaim ttlMs r key))
  | refused {key : String} {slot : Slot} (hredis : backend = .redis) (hkey : r.key? = some key)
    (hlive : s.live key = some slot) : Segment backend s r .arrived s (.getting slot)
  | observed {phase : Phase} {key : String} {refused : List Slot} (hkey : r.key? = some key)
    (hphase : (phase = .arrived ∧ backend = .memory ∧ refused = [] ∧ s.live key ≠ none) ∨
      ∃ slot, phase = .getting slot ∧ refused = [slot]) :
    Segment backend s r phase s (observe hash r refused (s.live key))
  | answered {claim : Claim} {answer : Answer} (hredis : backend = .redis) :
    Segment backend s r (.handling claim) s (.writing claim answer)
  | settled {phase : Phase} {claim : Claim} {answer : Answer} (hclaim : phase.claim? = some claim)
    (hwrites : writes backend ⟨r, phase⟩ = some claim)
    (hanswer : ∀ a, phase.answer? = some a → a = answer) :
    Segment backend s r phase (s.settle hash ttlMs claim answer) (.answered claim answer)

theorem segment_of_resume {backend : Backend} {s s' : Server} {t t' : Task} {i : Input}
    (h : resume hash ttlMs backend s t i = some (s', t')) :
    t'.request = t.request ∧ Segment hash ttlMs backend s t.request t.phase s' t'.phase := by
  obtain ⟨r, phase⟩ := t
  cases phase with
  | arrived =>
    cases i with
    | answer a => cases h
    | go =>
      simp only [resume] at h
      cases hkey : r.key? with
      | none =>
        rw [hkey] at h
        obtain ⟨rfl, rfl⟩ := Prod.mk.inj (Option.some.inj h)
        exact ⟨rfl, .passed hkey⟩
      | some key =>
        rw [hkey] at h
        cases hlive : s.live key with
        | none =>
          simp only [hlive] at h
          obtain ⟨rfl, rfl⟩ := Prod.mk.inj (Option.some.inj h)
          exact ⟨rfl, .claimed hkey hlive⟩
        | some slot =>
          simp only [hlive] at h
          cases backend with
          | memory =>
            obtain ⟨rfl, rfl⟩ := Prod.mk.inj (Option.some.inj h)
            refine ⟨rfl, ?_⟩
            rw [← hlive]
            exact .observed hkey (.inl ⟨rfl, rfl, rfl, by simp [hlive]⟩)
          | redis =>
            obtain ⟨rfl, rfl⟩ := Prod.mk.inj (Option.some.inj h)
            exact ⟨rfl, .refused rfl hkey hlive⟩
  | getting refused =>
    cases i with
    | answer a => cases h
    | go =>
      simp only [resume, Option.map_eq_some_iff] at h
      obtain ⟨key, hkey, heq⟩ := h
      obtain ⟨rfl, rfl⟩ := Prod.mk.inj heq
      exact ⟨rfl, .observed hkey (.inr ⟨refused, rfl, rfl⟩)⟩
  | handling claim =>
    cases i with
    | go => cases h
    | answer a =>
      cases backend with
      | memory =>
        obtain ⟨rfl, rfl⟩ := Prod.mk.inj (Option.some.inj h)
        exact ⟨rfl, .settled rfl rfl (by simp [Phase.answer?])⟩
      | redis =>
        obtain ⟨rfl, rfl⟩ := Prod.mk.inj (Option.some.inj h)
        exact ⟨rfl, .answered rfl⟩
  | writing claim a =>
    cases i with
    | answer b => cases h
    | go =>
      obtain ⟨rfl, rfl⟩ := Prod.mk.inj (Option.some.inj h)
      exact ⟨rfl, .settled rfl rfl (by simp [Phase.answer?])⟩
  | answered claim a => cases h
  | replayed slot => cases h
  | conflict met => cases h
  | inProgress => cases h
  | passed => cases h

end

end Idempotency
