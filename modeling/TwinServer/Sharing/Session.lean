-- SUMMARY: Challenges, logins and reads of the sharing service as a machine, and what one segment of it can do.
import TwinServer.Base.Async
import TwinServer.Sharing.Service

/-!
# Challenges and sessions

`challenge`, `verify` and `read` of `src/sharing/service.ts`. A DID asks for a challenge,
returns it signed, and gets a token; with the token it reads until the session has
expired. Each of the three calls asks for the policy of the Twin on its way, and what
the ledger, the chain and the file answer then is input, so it may change at any time.
-/

open Js Js.Json Async

namespace Sharing

/-! ## The state -/

structure Challenge where
  did : String
  twinId : String
  message : String
  expiresAt : Nat

structure Grant where
  did : String
  twinId : String
  expiresAt : Nat

/-- A call of `verify` has taken a challenge out of the map: the Twin it was called for, the id and
the challenge, and the time. -/
structure Consumption where
  twinId : String
  challengeId : String
  challenge : Challenge
  time : Nat

/-- A call of `verify` has created a session: what it had taken, the signature and the address
that has signed, the token, and the time. -/
structure Login where
  consumption : Consumption
  signature : String
  address : String
  token : String
  time : Nat

/-- The session of a login. -/
def Login.grant (login : Login) : Grant where
  did := login.consumption.challenge.did
  twinId := login.consumption.twinId
  expiresAt := login.time + 1800000

/-- The maps of the service and the clock, with the challenges that were issued, what calls of
`verify` have taken, and the logins so far. -/
structure Sessions where
  now : Nat
  challenges : Record Challenge := []
  sessions : Record Grant := []
  issued : List (String × Challenge) := []
  consumed : List Consumption := []
  logins : List Login := []

/-- `prune`. -/
def Sessions.prune (s : Sessions) : Sessions :=
  { s with challenges := s.challenges.filter fun e => s.now < e.2.expiresAt
           sessions := s.sessions.filter fun e => s.now < e.2.expiresAt }

/-! ## Authorization in steps -/

/-- What an authorization has read: a policy on chain, and when, or the metadata of the Twin and the
content of the file. -/
inductive Basis where
  | chain (policy : AccessPolicy) (time : Nat)
  | file (metadata : Json) (content : Option Json)

/-- How far `authorize` has come. -/
inductive Asking where
  | twin
  | chain (fields : Json)
  | file (fields metadata : Json)
  | refused (error : Thrown)
  | granted (basis : Basis) (authorization : Authorization)

/-- A call of `read`, with the session it has found. -/
structure Read where
  twinId : String
  token : String
  scope : Scope
  grant : Grant

structure ReadResult where
  fields : Json
  did : String
  expiresAt : Nat
  revision : Option Json
  rights : Rights
  permissions : Permissions

/-- What a call asks for the policy for. -/
inductive Purpose where
  | challenge (twinId did : String)
  | login (consumption : Consumption) (signature address : String)
  | read (r : Read)

@[local grind] def Purpose.did : Purpose → String
  | .challenge _ did => did
  | .login consumption _ _ => consumption.challenge.did
  | .read r => r.grant.did

def Purpose.scope : Purpose → Scope
  | .challenge _ _ | .login _ _ _ => .discover
  | .read r => r.scope

inductive SessionPhase where
  /-- while the signature is verified -/
  | signing (consumption : Consumption) (signature : String)
  /-- while the controller of the DID is looked up -/
  | controlling (consumption : Consumption) (signature address : String)
  | asking (purpose : Purpose) (asking : Asking)
  | challenged (challengeId : String) (c : Challenge)
  | verified (token : String) (expiresAt : Nat)
  | resolved (r : Read) (basis : Basis) (result : ReadResult) (time : Nat)
  | failed (error : Thrown)

inductive SessionCall where
  | challenge (id : String) (rawDid : Option Json)
  | verify (id : String) (input : Json)
  | read (id token : String) (scope : Scope)

inductive SessionInput where
  | twin (twin : Except Thrown Json)
  /-- the answer of the chain, if it gives one -/
  | chain (answer : Option Json)
  | file (content : Except Thrown (Option Json))
  /-- the address that has signed, if the signature is valid -/
  | signature (address : Option String)
  | controller (owned : Except Thrown Bool)
  /-- the challenge id and the nonce that are drawn -/
  | challenge (challengeId nonce : String)
  | token (token : String)
  | go

section
variable [Runtime] (o : SharingOptions) (hash : String → String)

/-- The outcome of the decision under a policy. -/
def decided (basis : Basis) : Except Thrown Authorization → Asking
  | .ok authorization => .granted basis authorization
  | .error error => .refused error

/-- One step of `authorize`. -/
@[local grind] def Asking.step (did : String) (scope : Scope) (now : Nat) : Asking → SessionInput → Option Asking
  | .twin, .twin (.error error) => some (.refused error)
  | .twin, .twin (.ok v) =>
    match twinFields o v with
    | .error error => some (.refused error)
    | .ok fields => some (.chain fields)
  | .chain fields, .chain answer =>
    match chainPolicy o fields answer with
    | .error error => some (.refused error)
    | .ok (some p) => some (decided (.chain p now) (authorizeChain o fields p did scope now))
    | .ok none =>
      match metadata o (fields.get? "mutable_metadata") with
      | .error error => some (.refused error)
      | .ok m => some (.file fields m)
  | .file _ _, .file (.error error) => some (.refused error)
  | .file fields m, .file (.ok content) =>
    some (decided (.file m content) (authorizeStored o fields m content did scope))
  | _, _ => none

/-! ## The three calls -/

/-- `publicUrl.replace(/\/$/, '')`. -/
def withoutSlash (url : String) : String :=
  if url.toList.getLast? = some '/' then .ofList url.toList.dropLast else url

/-- The text that is signed. -/
def challengeMessage (twinId did nonce : String) (expiresAt : Nat) : String :=
  String.intercalate "\n"
    ["ObjectID restricted Twin read access", "Network: " ++ o.network, "Package: " ++ o.packageId,
      "Twin: " ++ twinId, "DID: " ++ did, "Server: " ++ withoutSlash o.publicUrl, "Nonce: " ++ nonce,
      "Expires: " ++ numberToString expiresAt]

def invalidChallenge : AppError := denied "Invalid or expired challenge" 401

def sessionExpired : AppError := denied "Restricted session expired. Reconnect with your DID." 401

/-- The checks of `verify` on the challenge it has taken; the signature that is to be verified. -/
def checkChallenge (id : String) (input : Json) (c : Challenge) (now : Nat) :
    Except Thrown String := do
  if c.twinId != id || c.expiresAt ≤ now then .error (.app invalidChallenge)
  else
    let did ← didOf o (input.get? "did")
    if c.did != did then .error (.app invalidChallenge)
    else match input.get? "signature" with
      | some (.string signature) =>
        if utf16Length signature > 2048 then .error (.app (denied "Invalid signature" 401))
        else .ok signature
      | _ => .error (.app (denied "Invalid signature" 401))

/-- `challenge` up to its first suspension. -/
def beginChallenge (id : String) (rawDid : Option Json) : Except Thrown SessionPhase := do
  let id ← twinIdOf id
  let did ← didOf o rawDid
  return .asking (.challenge id did) .twin

/-- `verify` up to its first suspension. -/
@[local grind] def beginVerify (s : Sessions) (id : String) (input : Json) : Sessions × Except Thrown SessionPhase :=
  match (do return (← twinIdOf id, ← conversion (stringOf (input.get? "challengeId")))) with
  | .error error => (s, .error error)
  | .ok (id, challengeId) =>
    match s.challenges.get? challengeId with
    | none => (s, .error (.app invalidChallenge))
    | some c =>
      let consumption : Consumption := ⟨id, challengeId, c, s.now⟩
      ({ s with challenges := s.challenges.delete challengeId, consumed := s.consumed ++ [consumption] },
        (checkChallenge o id input c s.now).map (.signing consumption))

/-- `read` up to its first suspension. -/
def beginRead (s : Sessions) (id token : String) (scope : Scope) : Except Thrown SessionPhase := do
  let id ← twinIdOf id
  match s.sessions.get? (hash token) with
  | none => .error (.app sessionExpired)
  | some grant =>
    if grant.twinId != id || grant.expiresAt ≤ s.now then .error (.app sessionExpired)
    else return .asking (.read ⟨id, token, scope, grant⟩) .twin

/-- The end of `challenge`. -/
def endChallenge (s : Sessions) (twinId did challengeId nonce : String) : Sessions × SessionPhase :=
  let s := s.prune
  if s.challenges.length ≥ 1000 then (s, .failed (.app (denied "Too many pending requests" 429)))
  else
    let expiresAt := s.now + 120000
    let c : Challenge := ⟨did, twinId, challengeMessage o twinId did nonce expiresAt, expiresAt⟩
    ({ s with challenges := s.challenges.set challengeId c, issued := s.issued ++ [(challengeId, c)] },
      .challenged challengeId c)

/-- The end of `verify`. -/
def endVerify (s : Sessions) (consumption : Consumption) (signature address token : String) :
    Sessions × SessionPhase :=
  let s := s.prune
  if s.sessions.length ≥ 1000 then (s, .failed (.app (denied "Too many active sessions" 429)))
  else
    let login : Login := ⟨consumption, signature, address, token, s.now⟩
    ({ s with sessions := s.sessions.set (hash token) login.grant, logins := s.logins ++ [login] },
      .verified token login.grant.expiresAt)

/-- The end of `read`. -/
def endRead (s : Sessions) (r : Read) (basis : Basis) (a : Authorization) : SessionPhase :=
  if r.grant.expiresAt ≤ s.now then .failed (.app sessionExpired)
  else
    let expiresAt :=
      if a.rights.expiresAt = 0 then r.grant.expiresAt else min r.grant.expiresAt a.rights.expiresAt
    .resolved r basis ⟨a.fields, r.grant.did, expiresAt, a.revision, a.rights,
      permissionSummary a.rights⟩ s.now

/-- The phase of a call that has run to its first suspension. -/
def begun : Except Thrown SessionPhase → SessionPhase
  | .ok phase => phase
  | .error error => .failed error

@[local grind] def sessionCall (s : Sessions) : SessionCall → Option (Sessions × SessionPhase)
  | .challenge id rawDid => some (s, begun (beginChallenge o id rawDid))
  | .verify id input => let (s', phase) := beginVerify o s id input; some (s', begun phase)
  | .read id token scope => some (s, begun (beginRead hash s id token scope))

@[local grind] def sessionResume (s : Sessions) : SessionPhase → SessionInput → Option (Sessions × SessionPhase)
  | .signing _ _, .signature none => some (s, .failed (.app (denied "Invalid signature" 401)))
  | .signing consumption signature, .signature (some address) =>
    some (s, .controlling consumption signature address)
  | .controlling _ _ _, .controller (.error error) => some (s, .failed error)
  | .controlling _ _ _, .controller (.ok false) =>
    some (s, .failed (.app (denied "DID controller not owned")))
  | .controlling consumption signature address, .controller (.ok true) =>
    some (s, .asking (.login consumption signature address) .twin)
  | .asking _ (.refused error), .go => some (s, .failed error)
  | .asking (.challenge twinId did) (.granted _ _), .challenge challengeId nonce =>
    some (endChallenge o s twinId did challengeId nonce)
  | .asking (.login consumption signature address) (.granted _ _), .token token =>
    some (endVerify hash s consumption signature address token)
  | .asking (.read r) (.granted basis a), .go => some (s, endRead s r basis a)
  | .asking purpose asking, i =>
    (Asking.step o purpose.did purpose.scope s.now asking i).map fun asking => (s, .asking purpose asking)
  | _, _ => none

/-- The service, as its challenges and sessions see it. -/
def twinSessions : Machine Sessions SessionPhase SessionCall SessionInput Nat where
  call := sessionCall o hash
  resume := sessionResume o hash
  env s ms := some { s with now := s.now + ms }

variable {o hash} in
theorem twinSessions_call (s : Sessions) (k : SessionCall) :
    (twinSessions o hash).call s k = sessionCall o hash s k := rfl

variable {o hash} in
theorem twinSessions_resume (s : Sessions) (phase : SessionPhase) (i : SessionInput) :
    (twinSessions o hash).resume s phase i = sessionResume o hash s phase i := rfl

end

/-! ## What a segment can do -/

section
variable [Runtime] (o : SharingOptions) (hash : String → String)

/-- A segment of a call. -/
inductive SessionSegment (s : Sessions) : SessionPhase → SessionInput → Sessions → SessionPhase → Prop
  | unsigned (consumption : Consumption) (signature : String) :
    SessionSegment s (.signing consumption signature) (.signature none) s
      (.failed (.app (denied "Invalid signature" 401)))
  | signed (consumption : Consumption) (signature address : String) :
    SessionSegment s (.signing consumption signature) (.signature (some address)) s
      (.controlling consumption signature address)
  | rejected {consumption : Consumption} {signature address : String} {answer : Except Thrown Bool}
    (error : Thrown) (hanswer : answer ≠ .ok true) :
    SessionSegment s (.controlling consumption signature address) (.controller answer) s
      (.failed error)
  | controlled (consumption : Consumption) (signature address : String) :
    SessionSegment s (.controlling consumption signature address) (.controller (.ok true)) s
      (.asking (.login consumption signature address) .twin)
  | asked {purpose : Purpose} {asking asking' : Asking} {i : SessionInput}
    (hstep : Asking.step o purpose.did purpose.scope s.now asking i = some asking') :
    SessionSegment s (.asking purpose asking) i s (.asking purpose asking')
  | refused (purpose : Purpose) (error : Thrown) :
    SessionSegment s (.asking purpose (.refused error)) .go s (.failed error)
  | full {purpose : Purpose} {basis : Basis} {a : Authorization} {i : SessionInput} (error : Thrown) :
    SessionSegment s (.asking purpose (.granted basis a)) i s.prune (.failed error)
  | challenged {twinId did challengeId nonce : String} {basis : Basis} {a : Authorization}
    {c : Challenge} (hroom : s.prune.challenges.length < 1000) (hdid : c.did = did)
    (htwin : c.twinId = twinId) :
    SessionSegment s (.asking (.challenge twinId did) (.granted basis a)) (.challenge challengeId nonce)
      { s.prune with
        challenges := s.prune.challenges.set challengeId c
        issued := s.issued ++ [(challengeId, c)] }
      (.challenged challengeId c)
  | loggedIn {consumption : Consumption} {signature address token : String} {basis : Basis}
    {a : Authorization} {login : Login} (hlogin : login = ⟨consumption, signature, address, token, s.now⟩)
    (hroom : s.prune.sessions.length < 1000) :
    SessionSegment s (.asking (.login consumption signature address) (.granted basis a)) (.token token)
      { s.prune with
        sessions := s.prune.sessions.set (hash token) login.grant
        logins := s.logins ++ [login] }
      (.verified token login.grant.expiresAt)
  | late (r : Read) (basis : Basis) (a : Authorization) (error : Thrown) :
    SessionSegment s (.asking (.read r) (.granted basis a)) .go s (.failed error)
  | resolved {r : Read} {basis : Basis} {a : Authorization} {result : ReadResult}
    (hfields : result.fields = a.fields) (hearly : s.now < r.grant.expiresAt) :
    SessionSegment s (.asking (.read r) (.granted basis a)) .go s (.resolved r basis result s.now)

variable {o hash} {s s' : Sessions}

theorem segment_of_endChallenge (twinId did challengeId nonce : String) (basis : Basis)
    (a : Authorization) :
    SessionSegment o hash s (.asking (.challenge twinId did) (.granted basis a))
      (.challenge challengeId nonce) (endChallenge o s twinId did challengeId nonce).1
      (endChallenge o s twinId did challengeId nonce).2 := by
  simp only [endChallenge]
  split
  · exact .full _
  · rename_i hroom
    exact .challenged (Nat.not_le.mp hroom) rfl rfl

theorem segment_of_endVerify (consumption : Consumption) (signature address token : String)
    (basis : Basis) (a : Authorization) :
    SessionSegment o hash s (.asking (.login consumption signature address) (.granted basis a))
      (.token token) (endVerify hash s consumption signature address token).1
      (endVerify hash s consumption signature address token).2 := by
  simp only [endVerify]
  split
  · exact .full _
  · rename_i hroom
    exact .loggedIn rfl (Nat.not_le.mp hroom)

theorem segment_of_endRead (r : Read) (basis : Basis) (a : Authorization) :
    SessionSegment o hash s (.asking (.read r) (.granted basis a)) .go s (endRead s r basis a) := by
  unfold endRead
  split
  · exact .late r basis a _
  · rename_i hearly
    exact .resolved rfl (Nat.not_le.mp hearly)

theorem segment_of_sessionResume {phase phase' : SessionPhase} {i : SessionInput}
    (h : sessionResume o hash s phase i = some (s', phase')) :
    SessionSegment o hash s phase i s' phase' := by
  cases phase with
  | signing consumption signature =>
    cases i with
    | signature address =>
      cases address with
      | none =>
        obtain ⟨rfl, rfl⟩ := Prod.mk.inj (Option.some.inj h)
        exact .unsigned consumption signature
      | some address =>
        obtain ⟨rfl, rfl⟩ := Prod.mk.inj (Option.some.inj h)
        exact .signed consumption signature address
    | _ => cases h
  | controlling consumption signature address =>
    cases i with
    | controller answer =>
      match answer with
      | .error error =>
        obtain ⟨rfl, rfl⟩ := Prod.mk.inj (Option.some.inj h)
        exact .rejected error fun h => by cases h
      | .ok false =>
        obtain ⟨rfl, rfl⟩ := Prod.mk.inj (Option.some.inj h)
        exact .rejected _ fun h => by cases h
      | .ok true =>
        obtain ⟨rfl, rfl⟩ := Prod.mk.inj (Option.some.inj h)
        exact .controlled consumption signature address
    | _ => cases h
  | asking purpose asking =>
    have hasked : (Asking.step o purpose.did purpose.scope s.now asking i).map
          (fun asking => (s, SessionPhase.asking purpose asking)) = some (s', phase') →
        SessionSegment o hash s (.asking purpose asking) i s' phase' := by
      intro h
      obtain ⟨asking', hstep, heq⟩ := Option.map_eq_some_iff.mp h
      obtain ⟨rfl, rfl⟩ := Prod.mk.inj heq
      exact .asked hstep
    cases asking with
    | refused error =>
      cases i with
      | go =>
        obtain ⟨rfl, rfl⟩ := Prod.mk.inj (Option.some.inj h)
        exact .refused purpose error
      | _ => cases purpose <;> exact hasked h
    | granted basis a =>
      cases purpose with
      | challenge twinId did =>
        cases i with
        | challenge challengeId nonce =>
          obtain ⟨rfl, rfl⟩ := Prod.mk.inj (Option.some.inj h)
          exact segment_of_endChallenge twinId did challengeId nonce basis a
        | _ => exact hasked h
      | login consumption signature address =>
        cases i with
        | token token =>
          obtain ⟨rfl, rfl⟩ := Prod.mk.inj (Option.some.inj h)
          exact segment_of_endVerify consumption signature address token basis a
        | _ => exact hasked h
      | read r =>
        cases i with
        | go =>
          obtain ⟨rfl, rfl⟩ := Prod.mk.inj (Option.some.inj h)
          exact segment_of_endRead r basis a
        | _ => exact hasked h
    | twin | chain | file => cases i <;> exact hasked h
  | challenged | verified | resolved | failed => cases h

theorem didOf_string (o : SharingOptions) (v : String) :
    didOf o (some (.string v)) =
      if isDid (toLowerCase (trim v)) o.network then .ok (toLowerCase (trim v))
      else fail ("A valid " ++ o.network ++ " DID is required") 422 := rfl

/-- What `verify` has taken passes its checks. -/
theorem checkChallenge_ok {id signature : String} {input : Json} {c : Challenge} {now : Nat}
    (h : checkChallenge o id input c now = .ok signature) : c.twinId = id ∧ now < c.expiresAt := by
  unfold checkChallenge at h
  split at h
  · cases h
  · rename_i hvalid
    simp only [Bool.or_eq_true, bne_iff_ne, ne_eq, decide_eq_true_eq, not_or, not_not,
      Nat.not_le] at hvalid
    exact hvalid

/-- `verify` fails, or takes a challenge and waits for its signature when the checks pass. -/
inductive Takes (s : Sessions) : Sessions → SessionPhase → Prop
  | failed (error : Thrown) : Takes s s (.failed error)
  | takes {k : Consumption} {phase : SessionPhase} (hpending : (k.challengeId, k.challenge) ∈ s.challenges)
    (hphase : (∃ error, phase = .failed error) ∨ ∃ signature, phase = .signing k signature ∧
      k.challenge.twinId = k.twinId ∧ k.time < k.challenge.expiresAt) :
    Takes s { s with
      challenges := s.challenges.delete k.challengeId, consumed := s.consumed ++ [k] } phase

theorem takes_of_beginVerify (id : String) (input : Json) :
    Takes s (beginVerify o s id input).1 (begun (beginVerify o s id input).2) := by
  unfold beginVerify
  split
  · exact .failed _
  · rename_i twinId challengeId _
    split
    · exact .failed _
    · rename_i c hc
      refine .takes (k := ⟨twinId, challengeId, c, s.now⟩) (Record.mem_of_get? hc) ?_
      cases hcheck : checkChallenge o twinId input c s.now with
      | error error => exact .inl ⟨error, rfl⟩
      | ok signature => exact .inr ⟨signature, rfl, checkChallenge_ok hcheck⟩

/-- `read` fails, or has found the session of its token for its Twin. -/
theorem begun_beginRead (id token : String) (scope : Scope) :
    (∃ error, begun (beginRead hash s id token scope) = .failed error) ∨
      ∃ r, begun (beginRead hash s id token scope) = .asking (.read r) .twin ∧
        s.sessions.get? (hash r.token) = some r.grant ∧ r.grant.twinId = r.twinId := by
  unfold beginRead
  cases twinIdOf id with
  | error error => exact .inl ⟨error, rfl⟩
  | ok twinId =>
    simp only [bind, Except.bind]
    split
    · exact .inl ⟨_, rfl⟩
    · rename_i grant hgrant
      split
      · exact .inl ⟨_, rfl⟩
      · rename_i hvalid
        simp only [Bool.or_eq_true, bne_iff_ne, ne_eq, decide_eq_true_eq, not_or, not_not] at hvalid
        exact .inr ⟨⟨twinId, token, scope, grant⟩, rfl, hgrant, hvalid.1⟩

/-- `challenge` fails, or asks for the policy. -/
theorem begun_beginChallenge (id : String) (rawDid : Option Json) :
    (∃ error, begun (beginChallenge o id rawDid) = .failed error) ∨
      ∃ twinId did, begun (beginChallenge o id rawDid) = .asking (.challenge twinId did) .twin := by
  unfold beginChallenge
  cases twinIdOf id with
  | error error => exact .inl ⟨error, rfl⟩
  | ok twinId =>
    cases didOf o rawDid with
    | error error => exact .inl ⟨error, rfl⟩
    | ok did => exact .inr ⟨twinId, did, rfl⟩

end

/-- The service before the first call. -/
def Sessions.start (now : Nat) : Sessions := { now }

end Sharing
