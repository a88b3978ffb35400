-- SUMMARY: The command service as asynchronous tasks over the command store.
import TwinServer.Base.Async
import TwinServer.Base.Topic
import TwinServer.Commands.Service

/-!
# The command service

`create`, `get` and the result handler run as tasks over the records of the store.
Each constructor of `Task` is a suspension of one of them; a store that is loaded
makes `initialize` a suspension and nothing more. Whether a write of the file, a
signature or a publication succeeds, and what the clock shows, are inputs.
-/

open Js Js.Json Async

namespace Commands

/-! ## The state -/

/-- A command request handed to the broker. -/
structure Request where
  topic : String
  record : CommandRecord

/-- The records of the store and the requests published so far. -/
structure Service where
  records : Record CommandRecord
  published : List Request

/-- `this.records.set(record.commandId, record)`. -/
def Service.set (s : Service) (r : CommandRecord) : Service :=
  { s with records := s.records.set r.commandId r }

/-- `records.get(commandId)`. -/
def Service.record? (s : Service) (commandId : String) : Option CommandRecord :=
  s.records.get? commandId

/-- `CommandStore.get`. -/
def Service.find (s : Service) (twinId commandId : String) : Option CommandRecord :=
  (s.record? commandId).filter fun r => r.twinId == twinId

def Service.publish (s : Service) (r : CommandRecord) : Service :=
  { s with published := s.published ++ [⟨r.transport.requestTopic, r⟩] }

/-- The ids of the published requests. -/
def Service.dispatchedIds (s : Service) : List String := s.published.map (·.record.commandId)

/-- The service after `initialize` has read the given records. -/
def Service.load (data : List CommandRecord) : Service :=
  { records := data.foldl (fun o r => o.set r.commandId r) [], published := [] }

@[simp] theorem Service.published_set (s : Service) (r : CommandRecord) :
    (s.set r).published = s.published := rfl

@[simp] theorem Service.dispatchedIds_set (s : Service) (r : CommandRecord) :
    (s.set r).dispatchedIds = s.dispatchedIds := rfl

@[simp] theorem Service.record?_publish (s : Service) (r : CommandRecord) (k : String) :
    (s.publish r).record? k = s.record? k := rfl

@[simp] theorem Service.dispatchedIds_publish (s : Service) (r : CommandRecord) :
    (s.publish r).dispatchedIds = s.dispatchedIds ++ [r.commandId] := by
  simp [Service.publish, Service.dispatchedIds]

theorem Service.record?_set (s : Service) (r : CommandRecord) (k : String) :
    (s.set r).record? k = if k = r.commandId then some r else s.record? k :=
  Record.get?_set s.records r.commandId r k

@[simp] theorem Service.record?_set_self (s : Service) (r : CommandRecord) :
    (s.set r).record? r.commandId = some r := by
  rw [Service.record?_set, if_pos rfl]

theorem Service.record?_set_ne (s : Service) {r : CommandRecord} {k : String}
    (h : k ≠ r.commandId) : (s.set r).record? k = s.record? k := by
  rw [Service.record?_set, if_neg h]

/-- Every record is stored under its own id. -/
def Service.Keyed (s : Service) : Prop := ∀ k r, s.record? k = some r → r.commandId = k

theorem Service.Keyed.set {s : Service} (h : s.Keyed) (r : CommandRecord) : (s.set r).Keyed := by
  intro k r' hr'
  rw [Service.record?_set] at hr'
  split at hr'
  case isTrue hk =>
    obtain rfl := Option.some.inj hr'
    exact hk.symm
  case isFalse => exact h k r' hr'

theorem Service.keyed_load (data : List CommandRecord) : (Service.load data).Keyed := by
  have hfold : ∀ (data : List CommandRecord) (s : Service), s.Keyed →
      Service.Keyed ⟨data.foldl (fun o r => o.set r.commandId r) s.records, s.published⟩ := by
    intro data
    induction data with
    | nil => intro s hs; exact hs
    | cons r data ih => intro s hs; exact ih (s.set r) (hs.set r)
  exact hfold data ⟨[], []⟩ (fun _ _ h => by cases h)

theorem Service.Keyed.find {s : Service} (h : s.Keyed) {twinId commandId : String}
    {r : CommandRecord} (hr : s.find twinId commandId = some r) :
    s.record? commandId = some r ∧ r.commandId = commandId ∧ r.twinId = twinId := by
  simp only [Service.find, Option.filter_eq_some_iff, beq_iff_eq] at hr
  exact ⟨hr.1, h commandId r hr.1, hr.2⟩

/-! ## Tasks -/

/-- On whose account a task stores a record in its last write: `create` after the
broker took the request, a result that arrived on a topic, or an expiry. -/
inductive Writer where
  | dispatch
  | result (topic : String)
  | expiry

inductive Task where
  /-- `create`, before `has` looks at the store -/
  | checking (r : CommandRecord)
  /-- `create`, before its first `records.set` -/
  | inserting (r : CommandRecord)
  /-- `create`, while the first write of the file is under way -/
  | persisting (r : CommandRecord)
  /-- `create`, before the request is published -/
  | signing (r : CommandRecord)
  /-- `create`, until the broker has acknowledged the request -/
  | publishing (r : CommandRecord)
  /-- the result handler, before it looks at the store -/
  | reading (topic : String) (m : Result)
  /-- `get`, before it looks at the store -/
  | looking (twinId commandId : String)
  /-- before the last `records.set` -/
  | putting (w : Writer) (r : CommandRecord)
  /-- while the last write of the file is under way -/
  | saving (r : CommandRecord)
  | returned (r : CommandRecord)
  | ignored
  | threw (e : Thrown)

/-- The record a task will store, now or after further suspensions. -/
def Task.held : Task → Option CommandRecord
  | .inserting r | .persisting r | .signing r | .publishing r | .putting _ r => some r
  | _ => none

/-- The record a task stores when it is resumed. -/
def Task.stores : Task → Option CommandRecord
  | .inserting r | .putting _ r => some r
  | _ => none

/-- The task is a `create` that has not stored its last record. -/
def Task.creating : Task → Bool
  | .inserting _ | .persisting _ | .signing _ | .publishing _ | .putting .dispatch _ => true
  | _ => false

inductive Call where
  | create (twinId callerDid : String) (input : Json) (now : Int) (uuid : String)
  | get (twinId commandId : String)
  /-- a user of the broker publishes a value on a topic -/
  | message (user topic : String) (value : Json) (now : Nat)

/-- What a task is resumed with: the awaited operation is done, at a time of the
clock, or it was rejected. -/
inductive Input where
  | done (now : Int)
  | rejected

/-! ## The machine -/

def commandNotFound : AppError :=
  { code := "COMMAND_NOT_FOUND", message := "Command was not found", status := 404,
    category := .VALIDATION }

def commandIdReused : AppError :=
  { code := "COMMAND_ID_REUSED", message := "commandId has already been used", status := 409,
    category := .VALIDATION }

section
variable [Runtime] (config : CommandConfig) (lib : Library) (writable : Bool)
  (mayPublish : String → String → Bool)

/-- The handler of the result subscription up to its first suspension. -/
@[local grind] def acceptResult (topic : String) (value : Json) (now : Nat) : Task :=
  match parseResult (.object [("topic", .string topic), ("value", value),
      ("observedAt", .number now)]) with
  | .error e => .threw e
  | .ok none => .ignored
  | .ok (some m) => .reading topic m

/-- A call up to its first suspension. A message reaches the handler when the broker
lets the user publish it and the subscription matches its topic. -/
@[local grind] def call (s : Service) : Call → Option (Service × Task)
  | .create twinId callerDid input now uuid =>
    match prepare config lib writable twinId callerDid input now uuid with
    | .error e => some (s, .threw e)
    | .ok r => some (s, .checking r)
  | .get twinId commandId => some (s, .looking twinId commandId)
  | .message user topic value now =>
    if mayPublish user topic && Mqtt.mqttMatch config.resultTopic topic then
      some (s, acceptResult topic value now)
    else none

end

/-- One segment of a task. -/
@[local grind] def resume (s : Service) : Task → Input → Option (Service × Task)
  | .checking r, .done _ =>
    some (s, if (s.record? r.commandId).isSome then .threw (.app commandIdReused) else .inserting r)
  | .inserting r, .done _ => some (s.set r, .persisting r)
  | .persisting r, .done _ => some (s, .signing r)
  | .persisting _, .rejected => some (s, .threw .rejection)
  | .signing r, .done _ => some (s.publish r, .publishing r)
  | .signing _, .rejected => some (s, .threw .rejection)
  | .publishing r, .done now => some (s, .putting .dispatch (r.dispatch now))
  | .publishing _, .rejected => some (s, .threw .rejection)
  | .reading topic m, .done now =>
    match s.find m.twinId m.commandId with
    | none => some (s, .ignored)
    | some r => some (s, if r.status.final then .ignored else .putting (.result topic) (r.accept m now))
  | .looking twinId commandId, .done now =>
    match s.find twinId commandId with
    | none => some (s, .threw (.app commandNotFound))
    | some r =>
      some (s, if !r.status.final && r.expiresAt ≤ now then .putting .expiry (r.expire now)
        else .returned r)
  | .putting _ r, .done _ => some (s.set r, .saving r)
  | .saving r, .done _ => some (s, .returned r)
  | .saving _, .rejected => some (s, .threw .rejection)
  | _, _ => none

/-! ## What a segment can do -/

/-- The task has come to its end. -/
def Task.over : Task → Bool
  | .returned _ | .ignored | .threw _ => true
  | _ => false

/-- The segments, one for each way a task can go on. -/
inductive Segment (s : Service) : Task → Service → Task → Prop where
  | free {r : CommandRecord} (h : s.record? r.commandId = none) :
    Segment s (.checking r) s (.inserting r)
  | inserted {r : CommandRecord} : Segment s (.inserting r) (s.set r) (.persisting r)
  | persisted {r : CommandRecord} : Segment s (.persisting r) s (.signing r)
  | published {r : CommandRecord} : Segment s (.signing r) (s.publish r) (.publishing r)
  | acknowledged {r : CommandRecord} {now : Int} :
    Segment s (.publishing r) s (.putting .dispatch (r.dispatch now))
  | answered {topic : String} {m : Result} {r : CommandRecord} {now : Int}
    (hfind : s.find m.twinId m.commandId = some r) (hopen : r.status.final = false) :
    Segment s (.reading topic m) s (.putting (.result topic) (r.accept m now))
  | overdue {twinId commandId : String} {r : CommandRecord} {now : Int}
    (hfind : s.find twinId commandId = some r) (hopen : r.status.final = false) :
    Segment s (.looking twinId commandId) s (.putting .expiry (r.expire now))
  | written {w : Writer} {r : CommandRecord} : Segment s (.putting w r) (s.set r) (.saving r)
  | ended {t t' : Task} (h : t'.over) : Segment s t s t'

theorem segment_of_resume {s s' : Service} {t t' : Task} {i : Input}
    (h : resume s t i = some (s', t')) : Segment s t s' t' := by
  cases t with
  | checking r =>
    cases i with
    | rejected => cases h
    | done now =>
      obtain ⟨rfl, rfl⟩ := Prod.mk.inj (Option.some.inj h)
      cases hrec : s.record? r.commandId with
      | none => exact .free hrec
      | some _ => exact .ended rfl
  | inserting r =>
    cases i with
    | rejected => cases h
    | done now =>
      obtain ⟨rfl, rfl⟩ := Prod.mk.inj (Option.some.inj h)
      exact .inserted
  | persisting r =>
    cases i with
    | rejected =>
      obtain ⟨rfl, rfl⟩ := Prod.mk.inj (Option.some.inj h)
      exact .ended rfl
    | done now =>
      obtain ⟨rfl, rfl⟩ := Prod.mk.inj (Option.some.inj h)
      exact .persisted
  | signing r =>
    cases i with
    | rejected =>
      obtain ⟨rfl, rfl⟩ := Prod.mk.inj (Option.some.inj h)
      exact .ended rfl
    | done now =>
      obtain ⟨rfl, rfl⟩ := Prod.mk.inj (Option.some.inj h)
      exact .published
  | publishing r =>
    cases i with
    | rejected =>
      obtain ⟨rfl, rfl⟩ := Prod.mk.inj (Option.some.inj h)
      exact .ended rfl
    | done now =>
      obtain ⟨rfl, rfl⟩ := Prod.mk.inj (Option.some.inj h)
      exact .acknowledged
  | reading topic m =>
    cases i with
    | rejected => cases h
    | done now =>
      cases hfind : s.find m.twinId m.commandId with
      | none =>
        simp only [resume, hfind, Option.some.injEq, Prod.mk.injEq] at h
        obtain ⟨rfl, rfl⟩ := h
        exact .ended rfl
      | some r =>
        simp only [resume, hfind, Option.some.injEq, Prod.mk.injEq] at h
        obtain ⟨rfl, rfl⟩ := h
        cases hfinal : r.status.final with
        | true => exact .ended rfl
        | false => exact .answered hfind hfinal
  | looking twinId commandId =>
    cases i with
    | rejected => cases h
    | done now =>
      cases hfind : s.find twinId commandId with
      | none =>
        simp only [resume, hfind, Option.some.injEq, Prod.mk.injEq] at h
        obtain ⟨rfl, rfl⟩ := h
        exact .ended rfl
      | some r =>
        simp only [resume, hfind, Option.some.injEq, Prod.mk.injEq] at h
        obtain ⟨rfl, rfl⟩ := h
        split
        case isTrue hdue =>
          simp only [Bool.and_eq_true, Bool.not_eq_true'] at hdue
          exact .overdue hfind hdue.1
        case isFalse => exact .ended rfl
  | putting w r =>
    cases i with
    | rejected => cases h
    | done now =>
      obtain ⟨rfl, rfl⟩ := Prod.mk.inj (Option.some.inj h)
      exact .written
  | saving r =>
    cases i with
    | rejected =>
      obtain ⟨rfl, rfl⟩ := Prod.mk.inj (Option.some.inj h)
      exact .ended rfl
    | done now =>
      obtain ⟨rfl, rfl⟩ := Prod.mk.inj (Option.some.inj h)
      exact .ended rfl
  | returned | ignored | threw => cases h

def machine [Runtime] (config : CommandConfig) (lib : Library) (writable : Bool)
    (mayPublish : String → String → Bool) : Machine Service Task Call Input Empty where
  call := call config lib writable mayPublish
  resume := resume
  env _ _ := none

/-- A call leaves the shared state alone, and its task is a request that was prepared,
a look-up, a message that was read, or at its end. -/
theorem call_cases [Runtime] {config : CommandConfig} {lib : Library} {writable : Bool}
    {mayPublish : String → String → Bool} {s s' : Service} {k : Call} {t : Task}
    (h : call config lib writable mayPublish s k = some (s', t)) :
    s' = s ∧ ((∃ r, t = .checking r ∧ r.status = .authorized) ∨
      (∃ twinId commandId, t = .looking twinId commandId) ∨
      (∃ topic m, t = .reading topic m ∧ ∃ value now, parseResult (.object [("topic", .string topic),
        ("value", value), ("observedAt", .number now)]) = .ok (some m)) ∨ t.over) := by
  cases k with
  | create twinId callerDid input now uuid =>
    cases hprep : prepare config lib writable twinId callerDid input now uuid with
    | error e =>
      simp only [call, hprep, Option.some.injEq, Prod.mk.injEq] at h
      obtain ⟨rfl, rfl⟩ := h
      exact ⟨rfl, .inr (.inr (.inr rfl))⟩
    | ok r =>
      simp only [call, hprep, Option.some.injEq, Prod.mk.injEq] at h
      obtain ⟨rfl, rfl⟩ := h
      exact ⟨rfl, .inl ⟨r, rfl, (prepare_eq_ok hprep).1⟩⟩
  | get twinId commandId =>
    obtain ⟨rfl, rfl⟩ := Prod.mk.inj (Option.some.inj h)
    exact ⟨rfl, .inr (.inl ⟨twinId, commandId, rfl⟩)⟩
  | message user topic value now =>
    simp only [call] at h
    split at h
    case isFalse => cases h
    case isTrue =>
      obtain ⟨rfl, rfl⟩ := Prod.mk.inj (Option.some.inj h)
      refine ⟨rfl, .inr (.inr ?_)⟩
      simp only [acceptResult]
      split
      case h_1 => exact .inr rfl
      case h_2 => exact .inr rfl
      case h_3 m hm => exact .inl ⟨topic, m, rfl, value, now, hm⟩

/-! ## A server with one command -/

/-- Every Twin has the command `pauseSimulation`. -/
def simulatorConfig : CommandConfig where
  enabled := true
  requestTopicTemplate := "objectid/twins/{twinId}/commands/request"
  resultTopic := "objectid/twins/+/commands/+/result"
  catalogs := [{ twinId := "*", interfaceId := "urn:objectid:interface:simulator-control:v1",
                 commands := [{ name := "pauseSimulation", version := "1.0",
                                riskClass := .operational, timeoutSeconds := 30,
                                parametersSchema := .object [("type", .string "object")] }] }]

/-- Every object is valid, and no text is a date. -/
def simulatorLibrary : Library where
  validate _ _ := .ok none
  parseDate _ := none

def simulatorCommandId : String := "urn:uuid:" ++ .ofList (.replicate 36 'a')

/-- The request `pauseSimulation` under an id of the client. -/
def pauseRequest : Json :=
  .object [("commandId", .string simulatorCommandId),
    ("command", .object [("name", .string "pauseSimulation")])]

/-- The server with a broker that lets everybody publish. -/
def simulatorMachine : Machine Service Task Call Input Empty :=
  @machine Runtime.ascii simulatorConfig simulatorLibrary true fun _ _ => true

theorem toList_simulatorCommandId :
    simulatorCommandId.toList = ['u', 'r', 'n', ':', 'u', 'u', 'i', 'd', ':'] ++ .replicate 36 'a' := by
  simp only [simulatorCommandId, String.toList_append, String.toList_ofList, String.reduceToList]


theorem concreteResultTopic_simulator (twinId : String) :
    concreteResultTopic simulatorConfig.resultTopic twinId simulatorCommandId =
      "objectid/twins" ++ "/" ++ twinId ++ "/" ++ "commands" ++ "/" ++ .ofList (.replicate 36 'a') ++ "/" ++ "result" := by
  have hid : stripPrefix "urn:uuid:" simulatorCommandId = .ofList (.replicate 36 'a') := by
    simp only [stripPrefix, startsWith, toList_simulatorCommandId, String.reduceToList]
    rfl
  apply String.toList_inj.mp
  simp [concreteResultTopic, simulatorConfig, fillWildcards, hid]

/-- The levels of the result topic of a Twin. -/
theorem levels_concreteResultTopic {twinId : String} (h : '/' ∉ twinId.toList) :
    Mqtt.levels (concreteResultTopic simulatorConfig.resultTopic twinId simulatorCommandId) =
      ["objectid", "twins", twinId, "commands", .ofList (.replicate 36 'a'), "result"] := by
  have hid : '/' ∉ (String.ofList (.replicate 36 'a')).toList := by simp
  have htwins : Mqtt.levels "objectid/twins" = ["objectid", "twins"] := by decide
  rw [concreteResultTopic_simulator, Mqtt.levels_append, Mqtt.levels_append, Mqtt.levels_append, Mqtt.levels_append,
    htwins, Mqtt.levels_of_not_mem h, Mqtt.levels_of_not_mem hid, Mqtt.levels_of_not_mem (s := "commands") (by decide),
    Mqtt.levels_of_not_mem (s := "result") (by decide)]
  rfl

theorem mqttMatch_concreteResultTopic {twinId : String} (h : '/' ∉ twinId.toList) :
    Mqtt.mqttMatch simulatorConfig.resultTopic
      (concreteResultTopic simulatorConfig.resultTopic twinId simulatorCommandId) := by
  have hlevels : Mqtt.levels simulatorConfig.resultTopic = ["objectid", "twins", "+", "commands", "+", "result"] := by
    decide
  rw [Mqtt.mqttMatch, levels_concreteResultTopic h, hlevels]
  simp [Mqtt.matchLevels]

theorem isUuidUrn_simulatorCommandId : isUuidUrn simulatorCommandId := by
  simp only [isUuidUrn, asciiLower, String.toList_ofList, toList_simulatorCommandId, String.reduceToList]
  rfl

/-- The record of the request for a Twin. -/
def simulatorRecord (twinId callerDid : String) : CommandRecord where
  commandId := simulatorCommandId
  twinId := twinId
  interfaceId := "urn:objectid:interface:simulator-control:v1"
  command := { name := "pauseSimulation", version := "1.0", parameters := .object [] }
  requestedBy := callerDid
  requestedAt := 0
  expiresAt := 30000
  proof := none
  idempotencyKey := simulatorCommandId
  correlationId := none
  status := .authorized
  statusUpdatedAt := 0
  transport :=
    { requestTopic := topicFromTemplate simulatorConfig.requestTopicTemplate twinId simulatorCommandId
      resultTopic := concreteResultTopic simulatorConfig.resultTopic twinId simulatorCommandId }

theorem prepare_pauseRequest [Runtime] {twinId callerDid uuid : String} (hcaller : callerDid ≠ "")
    (hexact : toLowerCase "*" ≠ toLowerCase twinId) :
    prepare simulatorConfig simulatorLibrary true twinId callerDid pauseRequest 0 uuid =
      .ok (simulatorRecord twinId callerDid) := by
  have hurn := isUuidUrn_simulatorCommandId
  simp only [pauseRequest, simulatorRecord]
  generalize simulatorCommandId = commandId at hurn ⊢
  have hcatalog : catalog simulatorConfig twinId =
      .ok { simulatorConfig.catalogs.head (by simp [simulatorConfig]) with twinId } := by
    simp [catalog, simulatorConfig, hexact, throwIf, bind, Except.bind, pure, Except.pure]
  have hid : requestedId (.object [("commandId", .string commandId),
      ("command", .object [("name", .string "pauseSimulation")])]) uuid = .ok commandId := by
    have htext : conversion (textOf? (some (.string commandId))) = .ok commandId := rfl
    simp [requestedId, get?, Record.get?, coalesce, htext, throwIf, hurn, bind, Except.bind, pure, Except.pure]
  have hcaller' : (callerDid == "") = false := by simp [hcaller]
  rw [prepare, hcatalog, hid, hcaller']
  rfl
theorem call_pauseRequest {digit : Char} {callerDid : String} (hcaller : callerDid ≠ "") (s : Service) :
    simulatorMachine.call s (.create (objectId digit) callerDid pauseRequest 0 "") =
      some (s, .checking (simulatorRecord (objectId digit) callerDid)) := by
  have hexact : asciiLower "*" ≠ asciiLower (objectId digit) := by
    intro h
    have hlength := congrArg (fun text : String => text.toList.length) h
    simp [asciiLower, objectId] at hlength
  have hprepare := @prepare_pauseRequest Runtime.ascii _ callerDid "" hcaller hexact
  simp only [simulatorMachine, machine, call, hprepare]

end Commands
