-- SUMMARY: The AI analysis connector: its configuration, the samples it collects, its requests and their answers.
import TwinServer.Base.Map
import TwinServer.Base.Simulation
import TwinServer.Base.Topic
import TwinServer.Realtime.Hub

/-!
# The AI analysis connector

`src/connectors/ai-analysis.ts`. The telemetry of the configured Twins is collected in one state object for each
Twin, and a request to the provider carries what the state has. An answer is taken when its configuration is still
the connected one, its state still that of the Twin, and its request not aborted. State objects and controllers are
places in the memory of the connector; its history and the requests that it sent are kept beside them.
-/

open Js Js.Json Realtime Async

namespace Ai

/-! ## The configuration -/

inductive Provider where
  | custom | openai
  deriving DecidableEq

structure Scope where
  tenantId : String
  twinId : String
  fields : List String
  prompt : Option String := none
  enabled : Option Bool := none

structure AiConfig where
  endpoint : String
  token : Option String := none
  provider : Provider
  model : String
  intervalMs : Dyadic
  timeoutMs : Dyadic
  scopes : List Scope
  unique : (scopes.map Scope.twinId).Nodup
  interval : 1000 ≤ intervalMs

/-- What `new URL` makes of a text. -/
structure Url where
  href : String
  protocol : String
  username : String := ""
  password : String := ""
  search : String := ""
  hash : String := ""

/-- One to 120 characters of the class of field paths. -/
def isFieldPath (s : String) : Bool :=
  1 ≤ s.length && s.length ≤ 120 &&
    s.toList.all fun c => c.isAlphanum || c == '_' || c == '.' || c == '/' || c == '-'

def scopeOf (raw : Json) : Option Scope := do
  let tenantId ← (asString? (raw.get? "tenantId")).filter (· ≠ "")
  let twinId ← (asString? (raw.get? "twinId")).filter (· ≠ "")
  let prompt ← match raw.get? "prompt" with
    | none => some none
    | some (.string s) => if utf16Length s ≤ 4000 then some (some s) else none
    | some _ => none
  let enabled ← match raw.get? "enabled" with
    | none => some none
    | some (.bool b) => some (some b)
    | some _ => none
  let fields ← match raw.get? "fields" with
    | some (.array items) => items.mapM fun f => (asString? (some f)).filter isFieldPath
    | _ => none
  if fields = [] ∨ fields.length > 32 then none
  return { tenantId, twinId, fields, prompt, enabled }

def scopesOf (raw : Option Json) : Option (List Scope) :=
  match raw with
  | some (.array items) => if items = [] ∨ items.length > 100 then none else items.mapM scopeOf
  | _ => none

/-- A number property with its default, when it is finite. -/
def finiteOr [Runtime] (v : Option Json) (fallback : Nat) : Option Dyadic :=
  match toNumber? (coalesce v (some (.number fallback))) with
  | some (.finite x) => some x
  | _ => none

def OPENAI_ENDPOINT : String := "https://api.openai.com/v1/responses"

/-- The checks of `connect`; they throw where this is `none`. The address parser and the credential of the
environment are given. -/
def configOf [Runtime] (parseUrl : String → Option Url) (environmentKey : Option String) (raw : Json) :
    Option AiConfig := do
  let provider ← match ← (coalesce (raw.get? "provider") (some (.string "custom"))).bind Json.toString? with
    | "custom" => some Provider.custom
    | "openai" => some Provider.openai
    | _ => none
  let address ← (coalesce (raw.get? "endpoint")
    (some (.string (if provider = .openai then OPENAI_ENDPOINT else "")))).bind Json.toString?
  let endpoint ← parseUrl address
  if provider = .openai ∧ endpoint.href ≠ OPENAI_ENDPOINT then none
  let token := (asString? (raw.get? "token")).or (if provider = .openai then environmentKey else none)
  if provider = .openai ∧ trim (token.getD "") = "" then none
  let secure := endpoint.protocol = "https:" ∨
    endpoint.protocol = "http:" ∧ asBool? (raw.get? "allowInsecureLocalEndpoint") = some true
  if endpoint.username ≠ "" ∨ endpoint.password ≠ "" ∨ endpoint.search ≠ "" ∨ endpoint.hash ≠ "" ∨ ¬ secure then none
  if asBool? (raw.get? "allowDataSharing") ≠ some true then none
  let scopes ← scopesOf (raw.get? "scopes")
  let intervalMs ← finiteOr (raw.get? "intervalMs") 60000
  let timeoutMs ← finiteOr (raw.get? "timeoutMs") 10000
  if timeoutMs < 100 ∨ 30000 < timeoutMs then none
  let model ← asString? (raw.get? "model")
  if trim model = "" ∨ 100 < utf16Length model then none
  if h : (scopes.map Scope.twinId).Nodup ∧ 1000 ≤ intervalMs then
    return { endpoint := endpoint.href, token, provider, model, intervalMs, timeoutMs, scopes
             unique := h.1, interval := h.2 }
  else none

/-- Neither disabled nor without a prompt. -/
def Scope.active (s : Scope) : Bool := s.enabled != some false && trim (s.prompt.getD "") != ""

/-- `config.scopes.find(s => s.tenantId === tenantId && s.twinId === twinId)`. -/
def AiConfig.scope? (config : AiConfig) (tenantId twinId : String) : Option Scope :=
  config.scopes.find? fun s => s.tenantId == tenantId && s.twinId == twinId

/-! ## Samples -/

/-- An own property of a value that is an object. -/
def ownProperty : Json → String → Option Json
  | .object fields, k => Record.get? fields k
  | .array items, k =>
    if k = "length" then some (.number items.length)
    else ((List.range items.length).find? fun n => n.repr == k).bind fun n => items[n]?
  | _, _ => none

/-- The value at a path of a payload. -/
def valueAt (payload : Json) (field : String) : Option Json :=
  ((Mqtt.splitChars '.' field.toList).map String.ofList).foldl (fun v part => v.bind (ownProperty · part)) (some payload)

/-- The finite numbers at the fields. -/
def valuesOf (fields : List String) (payload : Json) : Record Number :=
  fields.foldl (fun values field => match valueAt payload field with
    | some (.number x) => if x.isFinite then values.set field x else values
    | _ => values) []

/-- A sample, and which entry of the history it was taken from. -/
structure Sample where
  observedAt : Number
  receivedAt : Number
  values : Record Number
  origin : Nat

def sampleOf (origin : Nat) (scope : Scope) (event : TwinRealtimeEvent) : Sample where
  observedAt := event.observedAt
  receivedAt := event.receivedAt
  values := valuesOf scope.fields event.payload
  origin := origin

/-- An analysis, and the samples that the provider was given for it. -/
structure AiAnalysis where
  summary : String
  limitations : String
  generatedAt : Int
  sourceReceivedAt : Number
  sampleCount : Nat
  model : String
  samples : List Sample

/-- `State`, where no attempt is one at `-Infinity`. -/
structure State where
  samples : List Sample := []
  attemptedAt : Option Int := none
  busy : Bool := false
  result : Option AiAnalysis := none

/-- The samples after one more: the twenty last of those received in five minutes. -/
def State.push (s : State) (clock : Int) (x : Sample) : State :=
  let samples := (s.samples ++ [x]).filter fun y => (Number.finite ((clock - 300000 : Int) : Dyadic)).le y.receivedAt
  { s with samples := samples.drop (samples.length - 20) }

/-! ## The connector -/

/-- What happened to the connector. -/
inductive Happening where
  | observed (tenantId : String) (event : TwinRealtimeEvent)
  | paused (tenantId : String)
  | resumed (tenantId : String)
  | connected (config : AiConfig)
  | disconnected

/-- A request that was sent, with the length of the history by then. -/
structure Request where
  tenantId : String
  twinId : String
  controller : Nat
  number : Nat
  config : AiConfig
  samples : List Sample
  sentAt : Int
  moment : Nat

structure Connector where
  clock : Int
  /-- The configuration, with a number that tells it from any other. -/
  config : Option (Nat × AiConfig) := none
  configs : Nat := 0
  memory : Nat → State := fun _ => {}
  allocated : Nat := 0
  states : Map Nat := .empty
  aborted : Nat → Bool := fun _ => false
  controllers : Nat := 0
  requests : List Nat := []
  twinRequests : Map Nat := .empty
  pausedTenants : List String := []
  failed : Bool := false
  /-- The calls of `connect` that wait. -/
  connecting : Nat := 0
  history : List Happening := []
  sent : List Request := []

/-- A request in flight. -/
structure Analysis where
  controller : Nat
  twinId : String
  state : Nat
  number : Nat
  config : AiConfig
  samples : List Sample
  nonempty : samples ≠ []

inductive Task where
  | idle
  | connecting (config : AiConfig)
  | analyzing (a : Analysis)

inductive Call where
  | observe (tenantId : String) (event : TwinRealtimeEvent)
  | setTenantEnabled (tenantId : String) (enabled : Bool)
  | connect (raw : Json)
  | disconnect

inductive Answer where
  | disconnected
  /-- The body of the response, where it came whole, in time and as JSON. -/
  | response (body : Option Json)

inductive Outside where
  | elapsed (ms : Nat)
  /-- The timer of a request. -/
  | timeout (controller : Nat)

namespace Connector

def latest (s : Connector) (twinId : String) : Option AiAnalysis :=
  (s.states.get? twinId).bind fun i => (s.memory i).result

/-- The `stale` of `latest`. -/
def stale (s : Connector) (r : AiAnalysis) : Bool :=
  r.sourceReceivedAt.lt (.finite ((s.clock - 300000 : Int) : Dyadic))

/-- The state object is changed, wherever it is held. -/
def modify (s : Connector) (i : Nat) (change : State → State) : Connector :=
  { s with memory := Function.update s.memory i (change (s.memory i)) }

def note (s : Connector) (h : Happening) : Connector := { s with history := s.history ++ [h] }

def drop (s : Connector) (twinId : String) : Connector := { s with states := s.states.delete twinId }

def abort (s : Connector) (controllers : List Nat) : Connector :=
  { s with aborted := fun i => s.aborted i || controllers.contains i }

/-- The state of a Twin, a new one if it has none. -/
def ensure (s : Connector) (twinId : String) : Connector × Nat :=
  match s.states.get? twinId with
  | some i => (s, i)
  | none =>
    ({ s with memory := Function.update s.memory s.allocated {}, allocated := s.allocated + 1
              states := s.states.set twinId s.allocated }, s.allocated)

/-- The last condition of `observe`: nothing to send, or not now. -/
def withheld (s : Connector) (config : AiConfig) (state : State) : Bool :=
  state.samples.isEmpty || state.busy || 2 ≤ s.requests.length ||
    state.attemptedAt.any fun t => ((s.clock - t : Int) : Dyadic) < config.intervalMs

/-- The first segment of `analyze`. -/
def send (s : Connector) (n : Nat) (config : AiConfig) (scope : Scope) (i : Nat)
    (h : (s.memory i).samples ≠ []) : Connector × Task :=
  ({ s.modify i fun state => { state with attemptedAt := some s.clock, busy := true } with
      controllers := s.controllers + 1, requests := s.requests ++ [s.controllers]
      aborted := Function.update s.aborted s.controllers false
      twinRequests := s.twinRequests.set scope.twinId s.controllers
      sent := s.sent ++ [⟨scope.tenantId, scope.twinId, s.controllers, n, config, (s.memory i).samples, s.clock,
        s.history.length⟩] },
    .analyzing ⟨s.controllers, scope.twinId, i, n, config, (s.memory i).samples, h⟩)

/-- `observe` from the collection of the sample on. -/
def collect (s : Connector) (n : Nat) (config : AiConfig) (scope : Scope) (x : Sample) : Connector × Task :=
  let (s, i) := s.ensure scope.twinId
  let s := s.modify i (·.push s.clock x)
  if h : s.withheld config (s.memory i) then (s, .idle)
  else s.send n config scope i fun hempty => h (by simp [withheld, hempty])

@[local grind] def observe (s : Connector) (tenantId : String) (event : TwinRealtimeEvent) : Connector × Task :=
  let origin := s.history.length
  let s := s.note (.observed tenantId event)
  match s.config with
  | none => (s, .idle)
  | some (n, config) =>
    match config.scope? tenantId event.twinId with
    | none => (s, .idle)
    | some scope =>
      if !scope.active || s.pausedTenants.contains tenantId then (s, .idle)
      else if event.encryption.encrypted then (s.drop event.twinId, .idle)
      else if (valuesOf scope.fields event.payload).isEmpty then (s, .idle)
      else s.collect n config scope (sampleOf origin scope event)

def setTenantEnabled (s : Connector) (tenantId : String) : Bool → Connector
  | true => { s.note (.resumed tenantId) with pausedTenants := s.pausedTenants.filter (· ≠ tenantId) }
  | false =>
    let s := { s.note (.paused tenantId) with pausedTenants := tenantId :: s.pausedTenants }
    let scopes := (s.config.elim [] fun c => c.2.scopes).filter (·.tenantId == tenantId)
    scopes.foldl (fun s scope => (s.abort (s.twinRequests.get? scope.twinId).toList).drop scope.twinId) s

def disconnect (s : Connector) : Connector :=
  { (s.abort s.requests).note .disconnected with config := none, states := .empty }

section
variable [Runtime] (parseUrl : String → Option Url) (environmentKey : Option String)

@[local grind] def call (s : Connector) : Call → Option (Connector × Task)
  | .observe tenantId event => some (s.observe tenantId event)
  | .setTenantEnabled tenantId enabled => some (s.setTenantEnabled tenantId enabled, .idle)
  | .connect raw => match configOf parseUrl environmentKey raw with
    | none => some (s, .idle)
    | some config => some ({ s.disconnect with connecting := s.connecting + 1 }, .connecting config)
  | .disconnect => some (s.disconnect, .idle)

end

end Connector

/-! ## The answers of the provider -/

def isNull : Json → Bool
  | .null => true
  | _ => false

/-- `item.type === "…"`. -/
def hasType (type : String) (item : Json) : Bool := asString? (item.get? "type") == some type

/-- The text of a completed response. -/
def outputText (body : Json) : Option String :=
  match asString? (body.get? "status"), body.get? "output" with
  | some "completed", some (.array output) =>
    if output.any isNull then none
    else
      let content := (output.filter (hasType "message")).flatMap fun item =>
        match coalesce (item.get? "content") (some (.array [])) with
        | some (.array items) => items
        | some v => [v]
        | none => []
      if content.any isNull || content.any (hasType "refusal") then none
      else match content.filter (hasType "output_text") with
        | [item] => asString? (item.get? "text")
        | _ => none
  | _, _ => none

/-- A text that is there and short enough. -/
def textOf (v : Option Json) (limit : Nat) : Option String :=
  (asString? v).filter fun s => trim s ≠ "" && utf16Length s ≤ limit

/-- The summary and the limitations that an answer has. -/
def readAnswer (parse : String → Option Json) (provider : Provider) (body : Json) : Option (String × String) := do
  let result ← match provider with
    | .custom => some body
    | .openai => (outputText body).bind parse
  let summary ← textOf (result.get? "summary") 4000
  let limitations ← textOf (result.get? "limitations") 2000
  return (summary, limitations)

namespace Connector

/-- The answer is still wanted. -/
def accepts (s : Connector) (a : Analysis) : Bool :=
  s.config.any (·.1 == a.number) && s.states.get? a.twinId == some a.state && !s.aborted a.controller

/-- The result that a request ends with. -/
def analysisOf (s : Connector) (a : Analysis) (answer : String × String) : AiAnalysis where
  summary := answer.1
  limitations := answer.2
  model := a.config.model
  generatedAt := s.clock
  sourceReceivedAt := (a.samples.getLast a.nonempty).receivedAt
  sampleCount := a.samples.length
  samples := a.samples

/-- The `try` and the `catch` of `analyze`. -/
def settle (s : Connector) (a : Analysis) : Option (String × String) → Connector
  | some answer =>
    if s.accepts a then
      { s.modify a.state fun state => { state with result := some (s.analysisOf a answer) } with failed := false }
    else s
  | none => if s.states.get? a.twinId = some a.state then { s with failed := true } else s

/-- The `finally` of `analyze`. -/
def release (s : Connector) (a : Analysis) : Connector :=
  { s.modify a.state fun state => { state with busy := false } with
    requests := s.requests.filter (· ≠ a.controller)
    twinRequests := if s.twinRequests.get? a.twinId = some a.controller then s.twinRequests.delete a.twinId
      else s.twinRequests }

@[local grind] def resume (parse : String → Option Json) (s : Connector) : Task → Answer → Option (Connector × Task)
  | .connecting config, .disconnected =>
    some ({ s.note (.connected config) with config := some (s.configs, config), configs := s.configs + 1
                                            failed := false, connecting := s.connecting - 1 }, .idle)
  | .analyzing a, .response body =>
    some ((s.settle a (body.bind (readAnswer parse a.config.provider))).release a, .idle)
  | _, _ => none

def outside (s : Connector) : Outside → Option Connector
  | .elapsed ms => some { s with clock := s.clock + ms }
  | .timeout controller => some (s.abort [controller])

end Connector

/-- The connector over its tasks. -/
def connector [Runtime] (parseUrl : String → Option Url) (environmentKey : Option String)
    (parse : String → Option Json) : Machine Connector Task Call Answer Outside where
  call := Connector.call parseUrl environmentKey
  resume := Connector.resume parse
  env := Connector.outside

end Ai
